import LeafWeb.Store.Keys
import Mathlib.Data.List.Sort

/-! The legacy drawing authority: one manifest and immutable objects in a backend whose writes may fail. -/

namespace LeafWeb.Store.Legacy

open Lib.Procedure Function

structure Checkout where
  holder : String
  (acquired expires : Time)
  fence : Option ℤ

structure VersionEntry where
  v : ℤ
  parent : Option ℤ
  created : Time
  bytes : ℕ
  sha256 : String
  (workitemId tool note : Option String)
  sourceRef : Option String := none
  /-- `plan_sha256` and `parent_version`, which are written together. -/
  planFields : Option (String × ℤ) := none

structure Manifest where
  (head latest : ℤ)
  versions : List VersionEntry
  checkout : Option Checkout
  checkoutFence : Option ℤ

def Manifest.entry? (m : Manifest) (v : ℤ) : Option VersionEntry := m.versions.find? (fun e => e.v = v)

structure Drawing where
  manifest : Option Manifest
  objects : ObjectKey → Option Bytes

def Drawing.absent : Drawing := ⟨none, fun _ => none⟩

def Drawing.write (d : Drawing) (k : ObjectKey) (data : Bytes) : Drawing :=
  { d with objects := update d.objects k (some data) }

def Drawing.erase (d : Drawing) (k : ObjectKey) : Drawing :=
  { d with objects := update d.objects k none }

def Drawing.save (d : Drawing) (m : Manifest) : Drawing := { d with manifest := some m }

structure Host extends DrawingId where
  -- What the store is run with: the drawing's identity, the digest function of the platform,
  -- whether the backend excludes other processes, and the part of the bundle reader that follows
  -- its content-address check.
  sha256 : Bytes → String
  crossProcessCheckoutSafe : Bool
  bundleConforms : Drawing → VersionEntry → Bytes → Bool

structure Session where
  drawing : Drawing
  faults : List Bool

abbrev StoreM := Proc Session StoreError

def attempt (f : Drawing → Drawing) : StoreM Unit := fun s =>
  if s.faults.head? = some true then (.error .backendFault, { s with faults := s.faults.tail })
  else (.ok (), ⟨f s.drawing, s.faults.tail⟩)

def put (k : ObjectKey) (data : Bytes) : StoreM Unit := attempt (fun d => d.write k data)

def delete (k : ObjectKey) : StoreM Unit := attempt (fun d => d.erase k)

def saveManifest (m : Manifest) : StoreM Unit := attempt (fun d => d.save m)

lemma triple_attempt {E : StoreError → Session → Prop} {Q : Unit → Session → Prop} (f : Drawing → Drawing)
    (s : Session) (hok : ∀ t, t.drawing = f s.drawing → Q () t)
    (herr : ∀ t, t.drawing = s.drawing → E .backendFault t) : Triple s (attempt f) Q E := by
  have he : exec (attempt f) s = attempt f s := rfl
  unfold Triple
  rw [he]
  by_cases hf : s.faults.head? = some true
  · simpa [attempt, hf] using herr { s with faults := s.faults.tail } rfl
  · simpa [attempt, hf] using hok _ rfl

lemma exec_attempt (f : Drawing → Drawing) (d : Drawing) : exec (attempt f) ⟨d, []⟩ = (.ok (), ⟨f d, []⟩) := rfl

variable (host : Host)

def get (k : ObjectKey) (d : Drawing) : Except StoreError Bytes :=
  match d.objects k with
  | some data => .ok data
  | none => .error (.keyError (k.path host.toDrawingId))

def loadManifest (d : Drawing) : Except StoreError Manifest :=
  match d.manifest with
  | some m => .ok m
  | none => .error (.keyError (manifestKey host.toDrawingId))

def putIfAbsentOrVerify (k : ObjectKey) (data : Bytes) : StoreM Unit := do
  match ← read (fun s => .ok (s.drawing.objects k)) with
  | none => put k data
  | some _ => pure ()
  let existing ← read (fun s => get host k s.drawing)
  refuse (fun _ => existing ≠ data) (fun _ =>
    .immutableConflict "immutable object already exists with different content")

def putOrVerifyBlob (k : ObjectKey) (data : Bytes) (digest : String) : StoreM Unit := do
  putIfAbsentOrVerify host k data
  let existing ← read (fun s => get host k s.drawing)
  refuse (fun _ => existing.length ≠ data.length ∨ host.sha256 existing ≠ digest) (fun _ =>
    .valueError ("reserved immutable version key " ++ k.path host.toDrawingId ++ " has mismatched content"))

inductive VersionSelector
  | head
  | latest
  | number (v : ℤ)

def VersionSelector.pick (m : Manifest) : VersionSelector → ℤ
  | .head => m.head
  | .latest => m.latest
  | .number v => v

def resolveVersion (d : Drawing) (version : VersionSelector) : Except StoreError (ℤ × ObjectKey) := do
  let m ← loadManifest host d
  let v := version.pick m
  match m.entry? v with
  | none => .error (unknownVersion host.toDrawingId v (m.versions.map (·.v)))
  | some _ =>
    let key ← drawingVersionKey v
    pure (v, key)

def resolveVersionEntry (d : Drawing) (version : VersionSelector) :
    Except StoreError (ℤ × ObjectKey × VersionEntry) := do
  let (v, key) ← resolveVersion host d version
  let m ← loadManifest host d
  match m.entry? v with
  | none =>
    .error (.valueError (s!"version {v} not in manifest for " ++ host.tid ++ "/" ++ host.did))
  | some entry => pure (v, key, entry)

def isHexDigest (digest : String) : Bool :=
  digest.length = 64 && digest.toList.all (fun c => "0123456789abcdef".toList.contains c)

def graphBundleKey (digest : String) : Except StoreError ObjectKey :=
  if isHexDigest digest then .ok (.bundle digest)
  else .error (.valueError "invalid bundle digest")

def maxBundleBytes : ℕ := 16 * 1024 * 1024

def readGraphBundle (d : Drawing) (version : VersionSelector) : Except StoreError Unit := do
  let (_, _, entry) ← resolveVersionEntry host d version
  let note := entry.note.getD ""
  if namesBundle entry.note then
    let digest := String.ofList (note.toList.drop bundleNote.length)
    let key ← graphBundleKey digest
    let raw ← get host key d
    if raw.length > maxBundleBytes ∨ host.sha256 raw ≠ digest then
      .error (.valueError "graph bundle hash mismatch")
    else if host.bundleConforms d entry raw then pure ()
    else .error (.valueError "graph bundle does not conform")
  else .error (.valueError "version has no graph bundle")

def verifySelectedBundle (d : Drawing) (version : ℤ) : Except StoreError Unit := do
  let (_, _, entry) ← resolveVersionEntry host d (.number version)
  if namesBundle entry.note then readGraphBundle host d (.number version) else pure ()

def isActive (co : Option Checkout) (now : Time) : Bool :=
  match co with
  | none => false
  | some c => decide (now < c.expires)

def authorizeCheckoutView (co : Option Checkout) (holder : Option String) (fence : Option ℤ)
    (now : Time) (action : String) : Except StoreError Unit :=
  if holder = none ∧ fence = none then .ok ()
  else
    match co with
    | none => .ok ()
    | some c =>
      if isActive (some c) now then refuseUnlessOwner c.holder c.fence holder fence action
      else .ok ()

def legacyCheckoutGuard {α : Type} (creating : Bool) (precondition : Option Bool) (body : StoreM α) :
    StoreM α := do
  refuse (fun s => host.crossProcessCheckoutSafe = true ∧ creating = false ∧
    s.drawing.manifest = none) (fun _ => .keyError (manifestKey host.toDrawingId))
  refuse (fun _ => precondition = some false) (fun _ =>
    .drawingVanished (host.tid ++ "/" ++ host.did ++ " vanished before the write"))
  body

end LeafWeb.Store.Legacy
