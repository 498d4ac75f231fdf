import LeafWeb.Lib.Dict
import Mathlib.Data.Rat.Floor

/-! The engine's entity list as `web/src/cadedit/mutationDiff.js` reads it: `none` is a field that is absent
or of the wrong type, or an array element that is not a finite number. -/

namespace LeafWeb.CadEdit

open Lib List Dict

abbrev RawArray := Option (List (Option ℚ))

structure Entity where
  (id handle : Option String)
  type : String
  layer : Option String
  closed : Bool
  vertices : Option (List RawArray)
  (bulges normal : RawArray)
  (radius startDeg endDeg : Option ℚ)
  (text style : Option String)
  textLocation : RawArray
  (height arrow dogleg rotationDeg : Option ℚ)
  majorAxis : RawArray
  ratio : Option ℚ
  name : Option String
  (ip scale : RawArray)
  (columns rows columnSpacing rowSpacing : Option ℚ)
  dimtype : Option String
  (def1 def2 dimline : RawArray)
  aci : Option ℚ
  trueColor : RawArray
  linetype : Option String
  (lineweight constantWidth : Option ℚ)
  (startWidths endWidths : Option (List ℚ))
  deriving DecidableEq

structure Point where
  (x y z : ℚ)
  deriving DecidableEq

def hexDigits (n : ℕ) : String := (String.ofList (Nat.toDigits 16 n)).toUpper

def hexHandle (raw : String) : String :=
  if 1 ≤ raw.length ∧ raw.length ≤ 20 ∧ raw.toList.all Char.isDigit then
    hexDigits (raw.toList.foldl (fun n c => 10 * n + (c.toNat - 48)) 0)
  else raw

def Entity.hex (e : Entity) : String := hexHandle ((e.id.or e.handle).getD "")

def coordinateEpsilon : ℚ := 1 / 10 ^ 9

def bulgeEps : ℚ := 1 / 10 ^ 10

def isRound (type : String) : Bool := type = "CIRCLE" || type = "ARC"

def isLinearType (type : String) : Bool := type = "LINE" || type = "LWPOLYLINE" || type = "POLYLINE"

def point3 : RawArray → Option Point
  | some (some x :: some y :: rest) => some ⟨x, y, (rest.head?.join).getD 0⟩
  | _ => none

def finites (l : List (Option ℚ)) : Option (List ℚ) := l.mapM id

def sameNumber (a b : ℚ) : Bool := |a - b| ≤ coordinateEpsilon * max 1 (max |a| |b|)

def samePoint (a b : Point) : Bool := sameNumber a.x b.x && sameNumber a.y b.y && sameNumber a.z b.z

def allSame {α : Type} (same : α → α → Bool) (a b : List α) : Bool :=
  a.length = b.length && (a.zip b).all fun p => same p.1 p.2

def samePoints : List Point → List Point → Bool := allSame samePoint

structure Props where
  aci : ℚ
  trueColor : Option (List ℚ)
  linetype : String
  lineweight : ℚ
  deriving DecidableEq

def nonempty (s : Option String) (default : String) : String :=
  match s with
  | some "" => default
  | some s => s
  | none => default

def propsOf (e : Entity) : Props where
  aci := e.aci.getD 256
  trueColor := (e.trueColor.bind finites).filter fun l => l.length = 3
  linetype := nonempty e.linetype "ByLayer"
  lineweight := e.lineweight.getD (-1)

def layerOf (e : Entity) : String := nonempty e.layer "0"

structure InsertPrint where
  name : String
  point : Point
  rot : ℚ
  scale : Point
  layer : String
  (columns rows columnSpacing rowSpacing : ℚ)
  deriving DecidableEq

structure DimensionPrint where
  dimtype : String
  (def1 def2 dimline : Point)
  rotation : ℚ
  (style layer : String)
  deriving DecidableEq

structure MleaderPrint where
  vertices : Option (List RawArray)
  (text style : Option String)
  textLocation : RawArray
  layer : String
  (height arrow dogleg : Option ℚ)
  props : Props
  deriving DecidableEq

structure OpaquePrint where
  type : String
  layer : Option String
  vertices : Option (List RawArray)
  (radius startDeg endDeg : Option ℚ)
  style : Option String
  textLocation : RawArray
  (arrow dogleg : Option ℚ)
  text : Option String
  (height rotationDeg : Option ℚ)
  bulges : RawArray
  closed : Bool
  majorAxis : RawArray
  ratio : Option ℚ
  name : Option String
  (ip scale : RawArray)
  (columns rows columnSpacing rowSpacing : ℚ)
  props : Props
  deriving DecidableEq

inductive Geometry
  | circle (layer : String) (c : Point) (r : ℚ) (props : Props)
  | arc (layer : String) (c : Point) (r startDeg endDeg : ℚ) (props : Props)
  | line (layer : String) (pts : List Point) (props : Props)
  | polyline (layer : String) (closed : Bool) (pts : List Point) (bulges : List ℚ) (curved : Bool)
      (props : Props)
  | insert (print : InsertPrint) (props : Props)
  | dimension (print : DimensionPrint)
  | mleader (pts : Option (List Point)) (print : MleaderPrint) (valid : Bool)
  | opaqueKind (print : OpaquePrint)
  deriving DecidableEq

def roundGeometry (e : Entity) : Option Geometry := do
  let c ← (e.vertices.getD []).head?.bind point3
  let r ← e.radius
  if r ≤ 0 then none
  else if e.type = "CIRCLE" then some (.circle (layerOf e) c r (propsOf e))
  else some (.arc (layerOf e) c r (← e.startDeg) (← e.endDeg) (propsOf e))

def rawBulges (e : Entity) : List (Option ℚ) := e.bulges.getD []

def bulgesOf (e : Entity) (n : ℕ) : List ℚ :=
  match finites (rawBulges e) with
  | some bs => if bs.length = n then bs else replicate n 0
  | none => replicate n 0

def curvedOf (e : Entity) (n : ℕ) : Bool :=
  rawBulges e ≠ [] && ((rawBulges e).length ≠ n || (finites (rawBulges e)).isNone ||
    (bulgesOf e n).any fun b => bulgeEps < |b|)

def linearGeometry (e : Entity) : Option Geometry := do
  let pts ← (e.vertices.getD []).mapM point3
  if e.type = "LINE" then
    if pts.length = 2 then some (.line (layerOf e) pts (propsOf e)) else none
  else if pts.length < 2 then none
  else some (.polyline (layerOf e) e.closed pts (bulgesOf e pts.length) (curvedOf e pts.length) (propsOf e))

def planGeometry (e : Entity) : Option Geometry :=
  if isRound e.type then roundGeometry e
  else if isLinearType e.type then linearGeometry e
  else none

def insertOf (e : Entity) : Option Geometry := do
  if e.type ≠ "INSERT" then none
  else
    let ip ← point3 e.ip
    let rot ← e.rotationDeg
    match ← finites (← e.scale) with
    | [sx, sy, sz] =>
      let name := e.name.getD ""
      if name = "" then none
      else
        some (.insert ⟨name, ⟨ip.x, ip.y, 0⟩, rot, ⟨sx, sy, sz⟩, layerOf e, e.columns.getD 1,
          e.rows.getD 1, e.columnSpacing.getD 0, e.rowSpacing.getD 0⟩ (propsOf e))
    | _ => none

def dimensionOf (e : Entity) : Option Geometry := do
  if e.type ≠ "DIMENSION" then none
  else
    let dimtype ← e.dimtype
    if dimtype ≠ "LINEAR" ∧ dimtype ≠ "ALIGNED" then none
    else
      let rotation ← if dimtype = "LINEAR" then e.rotationDeg else some 0
      some (.dimension ⟨dimtype, ← point3 e.def1, ← point3 e.def2, ← point3 e.dimline, rotation,
        nonempty e.style "Standard", layerOf e⟩)

def mleaderText (s : String) : Bool :=
  s ≠ "" && s.length ≤ 256 && s.toList.head? ≠ some ' ' && s.toList.getLast? ≠ some ' ' &&
    s.toList.all fun c => 32 ≤ c.toNat && c.toNat ≤ 126 && c ≠ '|' && c ≠ '\\' && c ≠ '%'

def mleaderPoints (e : Entity) : Option (List Point) := do
  let verts ← e.vertices
  if verts.length = 2 then verts.mapM point3 else none

def mleaderValid (e : Entity) : Bool :=
  (match mleaderPoints e with
    | some [p, q] => p.z = 0 && q.z = 0 && !(p.x = q.x && p.y = q.y)
    | _ => false) &&
  (match e.text with
    | some t => mleaderText t
    | none => false) &&
  nonempty e.style "" ≠ ""

def mleaderOf (e : Entity) : Option Geometry :=
  if e.type ≠ "MLEADER" then none
  else some (.mleader (mleaderPoints e) ⟨e.vertices, e.text, e.style, e.textLocation, layerOf e,
    e.height, e.arrow, e.dogleg, propsOf e⟩ (mleaderValid e))

def opaqueOf (e : Entity) : Option Geometry :=
  if e.type = "" ∨ isRound e.type ∨ isLinearType e.type then none
  else some (.opaqueKind ⟨e.type, e.layer, e.vertices, e.radius, e.startDeg, e.endDeg, e.style,
    e.textLocation, e.arrow, e.dogleg, e.text, e.height, e.rotationDeg, e.bulges, e.closed,
    e.majorAxis, e.ratio, e.name, e.ip, e.scale, e.columns.getD 1, e.rows.getD 1,
    e.columnSpacing.getD 0, e.rowSpacing.getD 0, propsOf e⟩)

def geometryOf (e : Entity) : Option Geometry :=
  (((planGeometry e).or (insertOf e)).or (dimensionOf e)).or ((mleaderOf e).or (opaqueOf e))

def indexStep (out : Dict String (Option Geometry)) (e : Entity) : Dict String (Option Geometry) :=
  match geometryOf e with
  | none => out
  | some g =>
    if e.hex = "" then out
    else
      match out.get e.hex with
      | some _ => out.set e.hex none
      | none => out.set e.hex (some g)

def indexByHandle (entities : List Entity) : Dict String Geometry := (entities.foldl indexStep .empty).compact

def readings (entities : List Entity) (h : String) : List Geometry :=
  (entities.filter fun e => e.hex = h).filterMap geometryOf

def tally : Option (Option Geometry) → List Geometry → Option (Option Geometry)
  | o, [] => o
  | none, [g] => some (some g)
  | _, _ => some none

lemma tally_cons (o : Option (Option Geometry)) (g : Geometry) (gs : List Geometry) :
    tally o (g :: gs) = tally (tally o [g]) gs := by
  rcases gs with _ | ⟨g', _ | ⟨g'', gs⟩⟩ <;> cases o <;> rfl

lemma readings_cons (e : Entity) (es : List Entity) (h : String) :
    readings (e :: es) h = readings [e] h ++ readings es h := by
  simp only [readings, filter_cons, filter_nil]
  split_ifs with he
  · rw [filterMap_cons, filterMap_cons, filterMap_nil]
    cases geometryOf e <;> rfl
  · rfl

variable {h : String}

lemma get_indexStep (d : Dict String (Option Geometry)) (e : Entity) (hh : h ≠ "") :
    (indexStep d e).get h = tally (d.get h) (readings [e] h) := by
  cases hg : geometryOf e with
  | none =>
    by_cases he : e.hex = h
    all_goals simp [indexStep, readings, hg, he, tally]
  | some g =>
    by_cases he : e.hex = h
    · subst he
      cases hd : d.get e.hex with
      | none | some => simp [indexStep, readings, hg, hh, hd, tally, get_set]
    have hne : h ≠ e.hex := fun hc => he hc.symm
    have hr : readings [e] h = [] := by simp [readings, he]
    rw [hr]
    simp only [indexStep, hg]
    split_ifs
    · rfl
    split
    all_goals rw [get_set, if_neg hne, tally]

lemma get_foldl_indexStep (es : List Entity) (hh : h ≠ "") :
    ∀ d : Dict String (Option Geometry), (es.foldl indexStep d).get h = tally (d.get h) (readings es h) := by
  induction es with
  | nil =>
    intro d
    rfl
  | cons e es ih =>
    intro d
    rw [foldl_cons, ih, get_indexStep d e hh, readings_cons]
    simp only [readings, filter_cons]
    split_ifs with he
    · cases hg : geometryOf e with
      | none => simp [hg, tally]
      | some g =>
        simp only [hg, filterMap_cons]
        exact (tally_cons _ _ _).symm
    · rfl

lemma get_foldl_indexStep_empty (es : List Entity) :
    ∀ d : Dict String (Option Geometry), (es.foldl indexStep d).get "" = d.get "" := by
  induction es with
  | nil =>
    intro d
    rfl
  | cons e es ih =>
    intro d
    rw [foldl_cons, ih]
    unfold indexStep
    split
    · rfl
    split_ifs with he
    · rfl
    split
    all_goals rw [get_set, if_neg (Ne.symm he)]

lemma get_indexByHandle {es : List Entity} {g : Geometry} : (indexByHandle es).get h = some g ↔ h ≠ "" ∧
    readings es h = [g] := by
  rw [indexByHandle, get_compact]
  by_cases hh : h = ""
  · subst hh
    rw [get_foldl_indexStep_empty]
    simp
  rw [get_foldl_indexStep es hh, get_empty]
  rcases readings es h with _ | ⟨g', _ | ⟨g'', gs⟩⟩
  · simp [tally]
  · simp [tally, hh]
  · simp [tally]

end LeafWeb.CadEdit
