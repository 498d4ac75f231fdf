import LeafWeb.Lib.Gather
import LeafWeb.Lib.Rounding
import LeafWeb.Mutation.Contract

namespace LeafWeb.Mutation

open Lib

def planarTolerance : ℚ := 1 / 1000000

def Pt.origin : Pt := ⟨0, 0, 0⟩

def Pt.minus (p q : Pt) : Pt := ⟨p.x - q.x, p.y - q.y, p.z - q.z⟩

def Pt.scaled (k : ℚ) (p : Pt) : Pt := ⟨k * p.x, k * p.y, k * p.z⟩

def dot (p q : Pt) : ℚ := p.x * q.x + p.y * q.y + p.z * q.z

def cross (a b : Pt) : Pt := ⟨a.y * b.z - a.z * b.y, a.z * b.x - a.x * b.z, a.x * b.y - a.y * b.x⟩

inductive PlaneError
  | unstable
  | collinear
  | notPlanar
  | steep

def PlaneError.text : PlaneError → String
  | .unstable => "added polyline has no stable plane normal"
  | .collinear => "added polyline points are collinear"
  | .notPlanar => "added polyline is not planar"
  | .steep => "collinear points with differing z have no planar polyline form"

structure Lowered where
  normal : Pt
  elevation : ℚ
  points : List (ℚ × ℚ)

def unit (A : Arith) (v : Pt) : Except PlaneError Pt := do
  let length := A.sqrt (dot v v)
  refuse (length ≤ planarTolerance) PlaneError.unstable
  return ⟨v.x / length, v.y / length, v.z / length⟩

def turnsAt (pts : List Pt) : List Pt :=
  match pts with
  | [] => []
  | origin :: rest => (rest.zip rest.tail).map fun pq => cross (pq.1.minus origin) (pq.2.minus origin)

def pointsUp (n : Pt) : Pt := if n.z < 0 ∨ (n.z = 0 ∧ (n.y < 0 ∨ (n.y = 0 ∧ n.x < 0))) then n.scaled (-1) else n

def worldToOcs (A : Arith) (pts : List Pt) : Except PlaneError Lowered := do
  let origin := pts.headD .origin
  let candidate ← demand ((turnsAt pts).find? fun c => planarTolerance < A.sqrt (dot c c)) PlaneError.collinear
  let normal := pointsUp (← unit A candidate)
  let axisX ← unit A (cross (if |normal.x| < 1 / 64 ∧ |normal.y| < 1 / 64 then ⟨0, 1, 0⟩ else ⟨0, 0, 1⟩) normal)
  let axisY := cross normal axisX
  let elevation := dot origin normal
  refuse (∃ p ∈ pts, planarTolerance < |dot p normal - elevation|) PlaneError.notPlanar
  return ⟨normal, elevation, pts.map fun p => (dot p axisX, dot p axisY)⟩

def worldToOcsAny (A : Arith) (pts : List Pt) : Except PlaneError Lowered :=
  match worldToOcs A pts with
  | .error .collinear => do
    let first := pts.headD .origin
    refuse (∃ p ∈ pts, roundTo 9 p.z ≠ roundTo 9 first.z) PlaneError.steep
    return ⟨⟨0, 0, 1⟩, first.z, pts.map fun p => (p.x, p.y)⟩
  | lowered => lowered

def upNormal : List ℚ := [0, 0, 1]

def normalIsUp (nrm : Option (List ℚ)) : Bool :=
  nrm.elim true fun normal => (normal.zip upNormal).all fun ab => |ab.1 - ab.2| ≤ 1 / 1000000

def mean (values : List ℚ) : ℚ := values.foldl (· + ·) 0 / values.length

def turnedAbout (A : Arith) (centerX centerY : ℚ) (t : Transform) (p : List ℚ) : List ℚ :=
  match p with
  | x :: y :: rest =>
    let (cosine, sine) := A.turned t.rotationDeg
    let relativeX := x - centerX
    let relativeY := y - centerY
    roundTo 9 (centerX + relativeX * cosine - relativeY * sine + t.dx) ::
      roundTo 9 (centerY + relativeX * sine + relativeY * cosine + t.dy) :: rest
  | _ => p

def transformedPoints (A : Arith) (points : List (List ℚ)) (t : Transform) : Except String (List (List ℚ)) := do
  refuse (∃ p ∈ points, p.length < 2) "list index out of range"
  let centerX := mean (points.map fun p => p.headD 0)
  let centerY := mean (points.map fun p => p.tail.headD 0)
  return points.map (turnedAbout A centerX centerY t)

end LeafWeb.Mutation
