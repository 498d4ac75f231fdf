import LeafWeb.Store.Checkout
import Mathlib.Tactic.SplitIfs

namespace LeafWeb.Store

structure DrawingId where
  (tid did : String)

inductive ObjectKey
  | version (v : ℤ)
  | plan (v : ℤ)
  | bundle (digest : String)
  deriving DecidableEq

def ObjectKey.isPlan : ObjectKey → Bool
  | .plan _ => true
  | _ => false

def digits8 (v : ℤ) : String :=
  let text := toString v
  String.ofList (List.replicate (8 - text.length) '0') ++ text

def drawingPath (id : DrawingId) : String := "tenants/" ++ id.tid ++ "/drawings/" ++ id.did

def manifestKey (id : DrawingId) : String := drawingPath id ++ "/manifest.json"

def ObjectKey.path (id : DrawingId) : ObjectKey → String
  | .version v => drawingPath id ++ "/v/" ++ digits8 v ++ ".dwg"
  | .plan v => drawingPath id ++ "/v/" ++ digits8 v ++ ".plan.txt"
  | .bundle digest => drawingPath id ++ "/bundles/" ++ digest ++ ".json"

def drawingVersionKey (v : ℤ) : Except StoreError ObjectKey :=
  if v < 1 then .error (.valueError s!"version must be >= 1, got {v}")
  else if v > 99999999 then .error (.valueError s!"version {v} overflows the 8-digit key field")
  else .ok (.version v)

lemma drawingVersionKey_ok {k : ObjectKey} {v : ℤ} (h : drawingVersionKey v = .ok k) : 1 ≤ v ∧
    v ≤ 99999999 := by
  unfold drawingVersionKey at h
  split_ifs at h
  omega

def unknownVersion (id : DrawingId) (v : ℤ) (known : List ℤ) : StoreError :=
  .valueError (s!"version {v} not in manifest for " ++ id.tid ++ "/" ++ id.did ++
    " (known=[" ++ ", ".intercalate ((known.mergeSort (· ≤ ·)).map toString) ++ "])")

def bundleNote : String := "solar-bundle:"

def namesBundle (note : Option String) : Bool := bundleNote.toList.isPrefixOf (note.getD "").toList

end LeafWeb.Store
