import LeafWeb.Lib.SortOn
import LeafWeb.Lib.Unique
import LeafWeb.Mutation.Geometry
import LeafWeb.Mutation.Names

/-! `validate_mutations`: the checks of a mutation set, and the canonical set they lead to. -/

namespace LeafWeb.Mutation

open Lib Prod List BlockDef

def maxPlanBytes : ℕ := 1048576

def maxOperations : ℕ := 5000

def maxEntities : ℕ := 200000

def maxPoints : ℕ := 100000

def maxPointsPerEntity : ℕ := 10000

def maxCoordinate : ℚ := 1000000000

def maxAngleDeg : ℚ := 3600

def dimensionMeasurementTolerance : ℚ := 1 / 1000

structure Flags where
  (allowTransforms allowXdata rejectNoop : Bool)

def Flags.default : Flags := ⟨true, false, true⟩

def quoted (s : String) : String := if '\'' ∈ s.toList then s!"\"{s}\"" else s!"'{s}'"

def number (value : Option ℚ) (field : String) (limit : ℚ) : Except String ℚ := do
  let result ← demand value s!"{field} must be a number"
  refuse (limit < |result|) s!"{field} is outside the supported range"
  return result

def safe (pattern : String → Bool) (value : Option String) (why : String) : Except String String := do
  let text ← demand value why
  refuse (¬pattern text) why
  return text

def addedHandle (value : Option String) (field : String) : Except String String :=
  safe safeHandle value s!"{field} is not a safe handle"

def existingHandle (value : String) (field : String) : Except String String :=
  safe safeExisting (some value) s!"{field} is not an AutoCAD handle"

def layerName (value : Option String) : Except String String := do
  let text ← safe safeName value "added layer is not a safe layer name"
  refuse (text = "." ∨ text = ".." ∨ '|' ∈ text.toList ∨ '\r' ∈ text.toList ∨ '\n' ∈ text.toList)
    "added layer is not a safe layer name"
  return text

def point3 (value : Option (List ℚ)) (field : String) : Except String Pt :=
  match value with
  | some [x, y] => do
    return ⟨← number (some x) field maxCoordinate, ← number (some y) field maxCoordinate, 0⟩
  | some [x, y, z] => do
    return ⟨← number (some x) field maxCoordinate, ← number (some y) field maxCoordinate,
      ← number (some z) field maxCoordinate⟩
  | _ => throw s!"{field} is a malformed point"

def points (value : Option (List (List ℚ))) (field : String) (minimum : ℕ) : Except String (List Pt) := do
  let listed ← demand value s!"{field} has an invalid point count"
  refuse (¬(minimum ≤ listed.length ∧ listed.length ≤ maxPointsPerEntity)) s!"{field} has an invalid point count"
  gather (fun out p => let index := out.length; point3 (some p) s!"{field} point {index}") [] listed

def Pt.rounded (d : ℕ) (p : Pt) : Pt := ⟨roundTo d p.x, roundTo d p.y, roundTo d p.z⟩

/-- `round(rotation % 360.0, 6) % 360.0` -/
def wrapped (rotation : ℚ) : ℚ := floorMod (roundTo 6 (floorMod rotation 360)) 360

def padded (p : List ℚ) : List ℚ := p ++ replicate (3 - p.length) 0

def truncMod (x m : ℚ) : ℚ := if 0 ≤ x then floorMod x m else -floorMod (-x) m

def noSweep (startDeg endDeg : ℚ) : Prop := |truncMod (endDeg - startDeg) 360| < 1 / 1000000000 deriving Decidable

def lowered {T : Type} (plane : Except PlaneError T) : Except String T := plane.mapError PlaneError.text

def planarUp (plane : Except PlaneError Lowered) : Except String Unit := do
  let l ← lowered plane
  refuse (¬normalIsUp (some l.normal.raw)) "block members must be planar with normal +Z"

def Kind.name : Kind → String
  | .lwpolyline => "LWPOLYLINE"
  | .circle => "CIRCLE"
  | .arc => "ARC"
  | .dimension => "DIMENSION"
  | .multileader => "MULTILEADER"

def indexedRows (intake : Intake) : List (Kind × Entity) :=
  (intake.rows .polylines).map (mk .lwpolyline) ++ (intake.rows .circles).map (mk .circle) ++
    (intake.rows .arcs).map (mk .arc) ++ (intake.rows .dimensions).map (mk .dimension) ++
      (intake.rows .mleaders).map (mk .multileader)

abbrev Index := Dict String (Kind × Entity)

def Entity.named (e : Entity) : Option String := e.handle.filter fun h => h ≠ ""

def indexIntake (intake : Intake) : Except String Index := do
  refuse (maxEntities < (indexedRows intake).length) "intake entities exceed the supported entity bound"
  return unique (fun row => row.2.named) (indexedRows intake)

def recordedLinetypes (intake : Intake) : List String :=
  (intake.properties.elim [] fun d => d.rows).filterMap fun row => row.2.linetype

def knownLinetypes (intake : Intake) : List String := knownLinetypeNames (recordedLinetypes intake)

def colorValue (value : ℤ) : Except String ℤ := do
  refuse (¬(0 ≤ value ∧ value ≤ 256)) "color aci must be an integer in 0..256"
  return value

def lineweightValue (value : ℤ) : Except String ℤ := do
  refuse (value ∉ lineweights) s!"lineweight {value} is not a valid enumeration value"
  return value

def linetypeValue (known : List String) (value : String) : Except String String := do
  let value ← safe safeName (some value) "linetype is not a safe linetype name"
  demand (canonicalLinetypeName value known) s!"linetype {value} is not loaded in this drawing"

def styleOf (known : List String) (raw : RawAdded) : Except String Style := do
  return ⟨← perhaps colorValue raw.color, ← perhaps (linetypeValue known) raw.linetype,
    ← perhaps lineweightValue raw.lineweight⟩

def removeStep (index : Index) (out : List String) (raw : String) : Except String String := do
  let position := out.length
  let handle ← existingHandle raw s!"removed[{position}]"
  refuse (handle ∈ out) s!"duplicate removed handle {quoted handle}"
  refuse (index.get handle = none) s!"unknown removed handle {quoted handle}"
  return handle

def kindOf (index : Index) (handle : String) : Option Kind := (index.get handle).map fst

def removedKinds (index : Index) (removed : List String) : List (String × Kind) :=
  removed.filterMap fun h =>
    ((kindOf index h).filter fun kind => kind ≠ .lwpolyline).map fun kind => (h, kind)

def transformStep (flags : Flags) (index : Index) (removed : List String) (out : List Transform)
    (raw : RawTransform) : Except String Transform := do
  let position := out.length
  let handle ← existingHandle raw.handle s!"transforms[{position}].handle"
  let kind ← demand (kindOf index handle) s!"unknown transform handle {quoted handle}"
  refuse (kind ≠ .lwpolyline) s!"transform handle {quoted handle} is not a polyline"
  refuse (handle ∈ out.map Transform.handle) s!"duplicate transform handle {quoted handle}"
  refuse (handle ∈ removed) s!"handle {quoted handle} cannot be removed and transformed"
  refuse (raw.dx = none ∨ raw.dy = none) s!"transform {quoted handle} requires dx and dy"
  let dx ← number raw.dx s!"transform {quoted handle} dx" 10000
  let dy ← number raw.dy s!"transform {quoted handle} dy" 10000
  let rotation ← number (some (raw.rotationDeg.getD 0)) s!"transform {quoted handle} rotation_deg" 360
  refuse (dx = 0 ∧ dy = 0 ∧ rotation = 0 ∧ flags.rejectNoop) s!"transform {quoted handle} is a no-op"
  return ⟨handle, dx, dy, rotation⟩

/-- The entities, and the handles that the set removes, absorbs and transforms. -/
structure Targets where
  index : Index
  (removed consumed transformed : List String)

def target (t : Targets) (raw : String) (op : String) (position : ℕ) (kinds : List Kind) :
    Except String (String × Entity) := do
  let handle ← existingHandle raw s!"{op}[{position}]"
  let (kind, entity) ← demand (t.index.get handle) s!"unknown {op} handle {quoted handle}"
  refuse (handle ∈ t.removed ∧ handle ∉ t.consumed) s!"handle {quoted handle} cannot be removed and replaced"
  refuse (kind = .multileader) "MLEADER is not a property target in this contract"
  let found := kind.name
  refuse (kind ∉ kinds) s!"{op} handle {quoted handle} is a {found}"
  return (handle, entity)

def setLayerStep (flags : Flags) (t : Targets) (out : List SetLayer) (raw : SetLayer) :
    Except String SetLayer := do
  let (handle, entity) ← target t raw.handle "set_layer" out.length [.lwpolyline, .circle, .arc]
  refuse (handle ∈ out.map SetLayer.handle) s!"duplicate set_layer handle {quoted handle}"
  let layer ← layerName (some raw.layer)
  refuse (some layer = entity.layer ∧ flags.rejectNoop) s!"set_layer {quoted handle} is a no-op"
  return ⟨handle, layer⟩

def boundPoints (total : ℕ) : Except String Unit := refuse (maxPoints < total) "mutation point bound exceeded"

def setPointsStep (A : Arith) (flags : Flags) (t : Targets) (total : ℕ) (out : List SetPoints)
    (raw : RawSetPoints) : Except String SetPoints := do
  let (handle, entity) ← target t raw.handle "set_points" out.length [.lwpolyline]
  refuse (handle ∈ out.map SetPoints.handle ∨ handle ∈ t.transformed)
    s!"handle {quoted handle} has more than one geometry operation"
  let closed := raw.closed.getD (entity.closed.getD false)
  let pts ← points (some raw.pts) s!"set_points {quoted handle}" (if closed then 3 else 2)
  given (handle ∈ t.consumed) (planarUp (worldToOcsAny A pts))
  boundPoints (total + (out.map fun s => s.pts.length).sum + pts.length)
  refuse (pts.map Pt.raw = (entity.pts.getD []).map padded ∧ closed = entity.closed.getD false ∧
    flags.rejectNoop) s!"set_points {quoted handle} is a no-op"
  return ⟨handle, closed, pts⟩

def sameCentre (entity : Entity) (centre : Pt) (radius : ℚ) : Prop :=
  (padded (entity.c.getD [])).take 3 = centre.raw ∧ entity.r = some radius
  deriving Decidable

def setCircleStep (flags : Flags) (t : Targets) (edited : List String) (out : List SetCircle)
    (raw : RawSetCircle) : Except String SetCircle := do
  let (handle, entity) ← target t raw.handle "set_circle" out.length [.circle]
  refuse (handle ∈ edited ∨ handle ∈ out.map SetCircle.handle)
    s!"handle {quoted handle} has more than one geometry operation"
  refuse (¬normalIsUp entity.nrm) s!"set_circle {quoted handle}: a tilted circle is not editable here"
  let centre ← point3 (some raw.c) s!"set_circle {quoted handle} c"
  let radius ← number (some raw.r) s!"set_circle {quoted handle} r" maxCoordinate
  refuse (radius ≤ 0) s!"set_circle {quoted handle} r must be positive"
  refuse (flags.rejectNoop ∧ sameCentre entity centre radius) s!"set_circle {quoted handle} is a no-op"
  return ⟨handle, centre, radius⟩

def setArcStep (flags : Flags) (t : Targets) (edited : List String) (out : List SetArc)
    (raw : RawSetArc) : Except String SetArc := do
  let (handle, entity) ← target t raw.handle "set_arc" out.length [.arc]
  refuse (handle ∈ edited ∨ handle ∈ out.map SetArc.handle)
    s!"handle {quoted handle} has more than one geometry operation"
  refuse (¬normalIsUp entity.nrm) s!"set_arc {quoted handle}: a tilted arc is not editable here"
  let centre ← point3 (some raw.c) s!"set_arc {quoted handle} c"
  let radius ← number (some raw.r) s!"set_arc {quoted handle} r" maxCoordinate
  refuse (radius ≤ 0) s!"set_arc {quoted handle} r must be positive"
  let start ← number (some raw.startDeg) s!"set_arc {quoted handle} start_deg" maxAngleDeg
  let stop ← number (some raw.endDeg) s!"set_arc {quoted handle} end_deg" maxAngleDeg
  refuse (noSweep start stop) s!"set_arc {quoted handle} has no sweep"
  refuse (flags.rejectNoop ∧ sameCentre entity centre radius ∧ entity.startDeg = some start ∧
    entity.endDeg = some stop) s!"set_arc {quoted handle} is a no-op"
  return ⟨handle, centre, radius, start, stop⟩

inductive AddKind
  | lwpolyline
  | line
  | circle
  | arc
  | insert
  | dimension
  | mleader
  deriving DecidableEq

def AddKind.ofName (name : String) : Option AddKind :=
  if name = "LWPOLYLINE" then some .lwpolyline
  else if name = "LINE" then some .line
  else if name = "CIRCLE" then some .circle
  else if name = "ARC" then some .arc
  else if name = "INSERT" then some .insert
  else if name = "DIMENSION" then some .dimension
  else if name = "MLEADER" then some .mleader
  else none

def RawAdded.entries (raw : RawAdded) : List (String × Bool) :=
  [("handle", raw.handle.isSome), ("kind", raw.kind.isSome), ("layer", raw.layer.isSome),
    ("closed", raw.closed.isSome), ("pts", raw.pts.isSome), ("xdata", raw.xdata.isSome),
    ("c", raw.c.isSome), ("r", raw.r.isSome), ("start_deg", raw.startDeg.isSome),
    ("end_deg", raw.endDeg.isSome), ("name", raw.name.isSome), ("pt", raw.pt.isSome),
    ("rot", raw.rot.isSome), ("scale", raw.scale.isSome), ("style", raw.style.isSome),
    ("text", raw.text.isSome), ("dimtype", raw.dimtype.isSome), ("def1", raw.def1.isSome),
    ("def2", raw.def2.isSome), ("dimline", raw.dimline.isSome), ("rotation", raw.rotation.isSome),
    ("measurement", raw.measurement.isSome), ("color", raw.color.isSome),
    ("linetype", raw.linetype.isSome), ("lineweight", raw.lineweight.isSome)]

def RawAdded.fields (raw : RawAdded) : List String := (raw.entries.filter fun field => field.2).map fst

def styleFields : List String := ["color", "linetype", "lineweight"]

def addedFields : List String :=
  ["handle", "kind", "layer", "closed", "pts", "xdata", "c", "r", "start_deg", "end_deg"]

def insertFields : List String := ["handle", "kind", "layer", "name", "pt", "rot", "scale"]

def mleaderFields : List String := ["handle", "kind", "layer", "style", "pts", "text"]

def dimensionFields : List String :=
  ["handle", "kind", "layer", "dimtype", "def1", "def2", "dimline", "rotation", "style", "measurement"]

def allowedFields (kind : Option String) : List String :=
  if kind = some "INSERT" then insertFields
  else if kind = some "DIMENSION" then dimensionFields
  else if kind = some "MLEADER" then mleaderFields
  else addedFields

def Shape.points : Shape → ℕ
  | .lwpolyline _ pts _ => pts.length
  | .line _ _ => 2
  | .insert .. => 1
  | .mleader .. => 2
  | _ => 0

def mleaderStyle (intake : Intake) (style : String) : Except String String :=
  match intake.mlstyles with
  | none => .ok style
  | some catalogue => do
    let entry ← demand (catalogue.find? fun item =>
      item.name.any fun name => lowerText name = lowerText style)
      s!"mleader style {style} is not loaded in this drawing"
    refuse (entry.segments ≠ some 1) "mleader style must take exactly two points in this contract"
    return entry.name.getD style

def twoPoints (pts : Option (List (List ℚ))) : Except String (Pt × Pt) :=
  match pts with
  | some [p, q] => do
    return ((← point3 (some p) "added MLEADER point").rounded 3,
      (← point3 (some q) "added MLEADER point").rounded 3)
  | _ => throw "mleader requires exactly two points"

def mleaderChar (c : Char) : Bool := printable c && c ≠ '|' && c ≠ '\\' && c ≠ '%'

def mleaderText (raw : Option String) : Except String String := do
  let text ← demand raw "mleader text must be a string"
  refuse (text ≠ strip text) "mleader text carries edge whitespace"
  refuse (¬(1 ≤ text.length ∧ text.length ≤ 256)) "mleader text must contain 1..256 characters"
  refuse (¬text.toList.all mleaderChar) "mleader text must use the closed printable ASCII charset"
  return text

def mleaderShape (intake : Intake) (total : ℕ) (raw : RawAdded) : Except String Shape := do
  let named ← safe safeName raw.style "added MLEADER style is not a safe dimstyle name"
  let style ← mleaderStyle intake named
  let (p, q) ← twoPoints raw.pts
  refuse (p.z ≠ 0 ∨ q.z ≠ 0) "mleader points must lie in the XY plane (z = 0)"
  refuse (p = q) "mleader points coincide"
  let text ← mleaderText raw.text
  boundPoints (total + 2)
  return .mleader style p q text

def blockName (raw : Option String) : Except String String := do
  let name ← demand raw "added INSERT name is not a safe block name"
  refuse (name = "" ∨ 255 < name.length ∨ '|' ∈ name.toList ∨ '\r' ∈ name.toList ∨
    '\n' ∈ name.toList) "added INSERT name is not a safe block name"
  refuse (name.toList.head? = some '*') "added INSERT cannot use a system or anonymous block name"
  refuse (¬name.toList.all printable) "block names outside printable ASCII are not carried in this round"
  return name

def definedBlock (intake : Intake) (declared : List String) (name : String) : Except String Unit := do
  let block ← demand
    (if name ∈ declared then some ⟨none, some [], some 0, some true, false, none⟩
    else intake.blocks.bind fun blocks => blocks.get name)
    s!"block {name} is not defined in this drawing"
  refuse (¬(block.complete = some true ∧ block.baseUnknown = false ∧ block.children.isSome ∧
    block.count = block.children.map length)) s!"block {name} is incomplete in this drawing"

def threeScales (scale : Option (List ℚ)) (handle : String) : Except String Pt :=
  match scale with
  | some [a, b, c] => do
    return Pt.rounded 4 ⟨← number (some a) "added INSERT scale" maxCoordinate,
      ← number (some b) "added INSERT scale" maxCoordinate,
      ← number (some c) "added INSERT scale" maxCoordinate⟩
  | _ => throw s!"added INSERT {quoted handle} scale must have three components"

def insertShape (intake : Intake) (declared : List String) (total : ℕ) (handle : String)
    (raw : RawAdded) : Except String Shape := do
  let name ← blockName raw.name
  definedBlock intake declared name
  refuse (raw.pt.map length ≠ some 3) s!"added INSERT {quoted handle} pt must have three components"
  let point ← point3 raw.pt "added INSERT pt"
  let rotation ← demand raw.rot "added INSERT rot must be a number"
  let scale ← threeScales raw.scale handle
  refuse (scale.x = 0 ∨ scale.y = 0 ∨ scale.z = 0) "added INSERT scale components must be non-zero"
  refuse (∃ e ∈ intake.rows .inserts, e.handle = some handle)
    s!"duplicate or conflicting added handle {quoted handle}"
  boundPoints (total + 1)
  return .insert name (point.rounded 3) (wrapped rotation) scale

inductive DimType
  | linear
  | aligned

def DimType.ofName (name : String) : Option DimType :=
  if name = "LINEAR" then some .linear else if name = "ALIGNED" then some .aligned else none

def projected (axis : ℚ × ℚ) (def1 def2 given : Pt) : Pt :=
  let normal := (-axis.2, axis.1)
  let offsetGiven := (given.x - def1.x) * normal.1 + (given.y - def1.y) * normal.2
  let offsetDef2 := (def2.x - def1.x) * normal.1 + (def2.y - def1.y) * normal.2
  let shift := offsetGiven - offsetDef2
  ⟨def2.x + shift * normal.1, def2.y + shift * normal.2, def2.z⟩

def near (given target : Pt) : Prop :=
  |given.x - target.x| ≤ dimensionMeasurementTolerance ∧
    |given.y - target.y| ≤ dimensionMeasurementTolerance ∧
      |given.z - target.z| ≤ dimensionMeasurementTolerance
  deriving Decidable

def dimensionLine (axis : ℚ × ℚ) (def1 def2 given : Pt) : Pt :=
  let target := projected axis def1 def2 given
  if near given target then given.rounded 3 else target.rounded 3

def dimensionStyle (intake : Intake) (raw : Option String) : Except String String := do
  let style ← safe safeName raw "added DIMENSION style is not a safe dimstyle name"
  refuse (style ∉ intake.dimstyles.getD ["Standard"]) s!"dimstyle {style} is not loaded in this drawing"
  return style

def agreesWith (A : Arith) (measurement : ℚ) : Option ℚ → Except String Unit
  | none => .ok ()
  | some value =>
    let submitted := A.text value
    let computed := A.text measurement
    refuse (dimensionMeasurementTolerance < |value - measurement|)
      s!"dimension measurement {submitted} disagrees with the definition points ({computed})"

def dimensionShape (A : Arith) (intake : Intake) (handle : String) (raw : RawAdded) : Except String Shape := do
  let dimtype ← demand (raw.dimtype.bind DimType.ofName)
    s!"added DIMENSION {quoted handle} has an unsupported dimtype"
  let def1 := (← point3 raw.def1 s!"added DIMENSION {quoted handle} def1").rounded 3
  let def2 := (← point3 raw.def2 s!"added DIMENSION {quoted handle} def2").rounded 3
  refuse (def1 = def2) "dimension definition points coincide"
  let submitted ← point3 raw.dimline s!"added DIMENSION {quoted handle} dimline"
  refuse (def1.z ≠ 0 ∨ def2.z ≠ 0 ∨ roundTo 3 submitted.z ≠ 0)
    "dimension points must lie in the XY plane (z = 0) in this round"
  let dx := def2.x - def1.x
  let dy := def2.y - def1.y
  let dz := def2.z - def1.z
  match dimtype with
  | .linear => do
    let rotation := wrapped (← demand raw.rotation s!"added DIMENSION {quoted handle} LINEAR requires rotation")
    let axis := A.turned rotation
    let style ← dimensionStyle intake raw.style
    let measurement := roundTo 3 |dx * axis.1 + dy * axis.2|
    agreesWith A measurement raw.measurement
    return .linear def1 def2 (dimensionLine axis def1 def2 submitted) style measurement rotation
  | .aligned => do
    refuse (raw.rotation ≠ none) "rotation is only valid for LINEAR"
    refuse (A.sqrt (dx * dx + dy * dy) ≤ planarTolerance) "dimension definition points coincide"
    let style ← dimensionStyle intake raw.style
    let measurement := roundTo 3 (A.sqrt (dx * dx + dy * dy + dz * dz))
    agreesWith A measurement raw.measurement
    return .aligned def1 def2 (dimensionLine (A.towards dx dy) def1 def2 submitted) style measurement

def unknownFields (handle : String) : String := s!"added entity {quoted handle} has unknown fields"

def lwpolylineShape (total : ℕ) (handle : String) (raw : RawAdded) : Except String Shape := do
  refuse (raw.c ≠ none ∨ raw.r ≠ none ∨ raw.startDeg ≠ none ∨ raw.endDeg ≠ none) (unknownFields handle)
  let closed ← demand raw.closed s!"added entity {quoted handle} must be a closed polyline"
  let pts ← points raw.pts s!"added entity {quoted handle}" (if closed then 3 else 2)
  boundPoints (total + pts.length)
  return .lwpolyline closed pts raw.xdata

def lineShape (total : ℕ) (handle : String) (raw : RawAdded) : Except String Shape := do
  refuse (raw.xdata ≠ none ∨ raw.closed ≠ none) (unknownFields handle)
  refuse (raw.c ≠ none ∨ raw.r ≠ none ∨ raw.startDeg ≠ none ∨ raw.endDeg ≠ none) (unknownFields handle)
  match ← points raw.pts s!"added entity {quoted handle}" 2 with
  | [p, q] => do
    refuse (p = q) s!"added entity {quoted handle} has zero length"
    boundPoints (total + 2)
    return .line p q
  | _ => throw s!"added entity {quoted handle} has an invalid point count"

def roundGeometry (handle : String) (raw : RawAdded) : Except String (Pt × ℚ) := do
  refuse (raw.xdata ≠ none ∨ raw.closed ≠ none) (unknownFields handle)
  refuse (raw.pts ≠ none) (unknownFields handle)
  let centre ← point3 raw.c s!"added entity {quoted handle} c"
  let radius ← number raw.r s!"added entity {quoted handle} r" maxCoordinate
  refuse (radius ≤ 0) s!"added entity {quoted handle} r must be positive"
  return (centre, radius)

def circleShape (handle : String) (raw : RawAdded) : Except String Shape := do
  let (centre, radius) ← roundGeometry handle raw
  refuse (raw.startDeg ≠ none ∨ raw.endDeg ≠ none) (unknownFields handle)
  return .circle centre radius

def arcShape (handle : String) (raw : RawAdded) : Except String Shape := do
  let (centre, radius) ← roundGeometry handle raw
  let start ← number raw.startDeg s!"added entity {quoted handle} start_deg" maxAngleDeg
  let stop ← number raw.endDeg s!"added entity {quoted handle} end_deg" maxAngleDeg
  refuse (noSweep start stop) s!"added entity {quoted handle} has no sweep"
  return .arc centre radius start stop

structure Setting where
  arith : Arith
  intake : Intake
  flags : Flags
  index : Index
  declared : List String

def checkXdata (flags : Flags) (handle : String) (raw : RawAdded) : Except String Unit :=
  refuse (raw.xdata ≠ none ∧ flags.allowXdata = false) s!"added entity {quoted handle} xdata is not supported"

def shapeOf (s : Setting) (total : ℕ) (handle : String) (raw : RawAdded) :
    AddKind → Except String Shape
  | .mleader => mleaderShape s.intake total raw
  | .insert => insertShape s.intake s.declared total handle raw
  | .dimension => dimensionShape s.arith s.intake handle raw
  | .lwpolyline => do
    checkXdata s.flags handle raw
    lwpolylineShape total handle raw
  | .line => do
    checkXdata s.flags handle raw
    lineShape total handle raw
  | .circle => do
    checkXdata s.flags handle raw
    circleShape handle raw
  | .arc => do
    checkXdata s.flags handle raw
    arcShape handle raw

def layerFor (intake : Intake) (layer : String) : AddKind → String
  | .mleader | .insert | .dimension => canonicalizeLayer layer intake.layers
  | _ => layer

def addStep (s : Setting) (total : ℕ) (out : List Placed) (raw : RawAdded) : Except String Placed := do
  let position := out.length
  refuse (raw.kind = some "INSERT" ∧ ∀ field ∈ raw.fields, field ∈ ["kind", "handle", "name"])
    "contract v3 is not enabled on this deployment"
  refuse (raw.kind = some "MLEADER" ∧ ∃ field ∈ styleFields, field ∈ raw.fields)
    "MLEADER carries no colour, linetype or lineweight in this contract"
  refuse (∃ field ∈ raw.fields, field ∉ allowedFields raw.kind ∧ field ∉ styleFields)
    s!"added entity at index {position} has unknown fields"
  let handle ← addedHandle raw.handle s!"added[{position}].handle"
  refuse ((s.index.get handle).isSome ∨ handle ∈ out.map Placed.handle)
    s!"duplicate or conflicting added handle {quoted handle}"
  let kind ← demand (AddKind.ofName (raw.kind.getD "LWPOLYLINE"))
    s!"added entity {quoted handle} has an unsupported kind"
  let layer ← layerName raw.layer
  let shape ← shapeOf s (total + (out.map fun p => p.shape.points).sum) handle raw kind
  return ⟨handle, layerFor s.intake layer kind, shape⟩

def sortAdded (A : Arith) (added : List Placed) : List Placed := sortOn A.json added

def ordinalOf (added : List Placed) (raw : List RawAdded) (i : ℕ) : ℕ :=
  added.findIdx fun p => (raw[i]?.bind RawAdded.handle) = some p.handle

def styled (styles : List (Option String × Style)) (p : Placed) : Added :=
  ⟨p, (styles.lookup (some p.handle)).getD .plain⟩

def stylesOf (known : List String) (raw : List RawAdded) : Except String (List (Option String × Style)) :=
  gather (fun _ r => do return (r.handle, ← styleOf known r)) [] raw

def insertsByHandle (intake : Intake) (index : Index) : Except String (List Entity) :=
  gather (fun out e => do
    let shown := e.handle.elim "None" quoted
    refuse ((∃ h, e.handle = some h ∧ (index.get h).isSome) ∨ e.handle ∈ out.map Entity.handle)
      s!"ambiguous property handle {shown}"
    return e) [] (intake.rows .inserts)

def recordOf (intake : Intake) (handle : String) : PropRecord :=
  (intake.properties.bind fun d => d.get handle).getD ⟨none, none, none, none⟩

structure StyleRule (V : Type) where
  op : String
  check : V → Except String V
  same : PropRecord → V → Bool

def colorRule : StyleRule ℤ :=
  ⟨"set_color", colorValue, fun record value => record.aci = some value && record.rgb = none⟩

def linetypeRule (known : List String) : StyleRule String :=
  ⟨"set_linetype", linetypeValue known,
    fun record value => record.linetype.any fun current => lowerText current = lowerText value⟩

def lineweightRule : StyleRule ℤ :=
  ⟨"set_lineweight", lineweightValue, fun record value => record.lineweight = some value⟩

def styleStep {V : Type} (flags : Flags) (intake : Intake) (t : Targets) (inserts : List Entity)
    (rule : StyleRule V) (out : List (StyleOp V)) (raw : StyleOp V) :
    Except String (StyleOp V) := do
  let op := rule.op
  let handle ← existingHandle raw.handle op
  refuse (handle ∈ out.map StyleOp.handle) s!"duplicate {op} handle {quoted handle}"
  refuse (handle ∈ t.removed) s!"property target {quoted handle} is also removed"
  refuse (t.index.get handle = none ∧ some handle ∉ inserts.map Entity.handle)
    s!"unknown {op} handle {quoted handle}"
  refuse (kindOf t.index handle = some .multileader) "MLEADER is not a property target in this contract"
  let value ← rule.check raw.value
  refuse (flags.rejectNoop ∧ rule.same (recordOf intake handle) value) s!"{op} {quoted handle} is a no-op"
  return ⟨handle, value⟩

def sortByValue {V : Type} (ops : List (StyleOp V)) : List (StyleOp V) := sortOn (fun op => hexValue op.handle) ops

def groupChar (c : Char) : Bool := printable c && c ∉ "<>/\\\":;?*|,=`".toList

def groupName (value : String) : Except String String := do
  let name := upperText value
  refuse (name ≠ strip name) "group name must not have leading or trailing whitespace or be whitespace only"
  refuse (¬(1 ≤ name.length ∧ name.length ≤ 255 ∧ name.toList.all groupChar))
    "group name must be safe printable ASCII, 1..255 characters"
  return upperText name

def headGroups (intake : Intake) : List String := (intake.groups.getD []).map fun g => foldText g.name

def removeGroupStep (intake : Intake) (out : List String) (raw : String) : Except String String := do
  let name ← groupName raw
  refuse (foldText name ∈ out.map foldText) "removed group names must be unique case-insensitively"
  refuse (foldText name ∉ headGroups intake) s!"removed group {quoted name} must exist"
  return name

def inModelSpace (e : Entity) : Bool :=
  !e.paperSpace && !e.paperspace && !e.block &&
    e.space.getD (.name "model") ∈ [.name "model", .name "Model", .name "ModelSpace", Space.number 0]

def supportedKinds : List String :=
  ["LINE", "LWPOLYLINE", "CIRCLE", "ARC", "TEXT", "INSERT", "DIMENSION", "POINT", "ELLIPSE"]

def memberRows (intake : Intake) : List String :=
  ([.polylines, .circles, .arcs, .texts, .inserts, .dimensions, .points, .ellipses].flatMap
    intake.rows).filterMap fun e =>
      (e.handle.filter fun h =>
        safeExisting h && inModelSpace e && e.kind.getD "LINE" ∈ supportedKinds).map upperText

def blockChildHandles (intake : Intake) : List String :=
  (intake.blocks.elim [] fun d => d.rows).flatMap fun row =>
    (row.2.children.getD []).map fun child => upperText (child.handle.getD "")

def isMemberHandle (intake : Intake) (handle : String) : Bool :=
  (memberRows intake).count handle = 1 && handle ∉ blockChildHandles intake

structure Ordinals where
  added : List Placed
  raw : List RawAdded

def Ordinals.of (o : Ordinals) (i : ℕ) : ℕ := ordinalOf o.added o.raw i

def isMleader (p : Placed) : Bool :=
  match p.shape with
  | .mleader .. => true
  | _ => false

def groupMember (intake : Intake) (removed : List String) (o : Ordinals) :
    RawMember → Except String Member
  | .handle h => do
    let handle := upperText (← existingHandle h "group member")
    refuse (∃ e ∈ intake.rows .mleaders, upperText (e.handle.getD "") = handle)
      "MLEADER is not a group member in this contract"
    refuse (¬isMemberHandle intake handle) "group member must be an existing supported model-space entity"
    refuse (handle ∈ removed.map upperText) "group member is also removed"
    return .handle handle
  | .add n => do
    refuse (¬(0 ≤ n ∧ n < o.added.length)) "group member ordinal must resolve inside canonical added"
    let ordinal := o.of n.toNat
    refuse (o.added[ordinal]?.any isMleader = true) "MLEADER is not a group member in this contract"
    return .add ordinal

def groupMemberStep (intake : Intake) (removed : List String) (o : Ordinals) (out : List Member)
    (raw : RawMember) : Except String Member := do
  let member ← groupMember intake removed o raw
  refuse (member ∈ out) "added group members must be distinct"
  return member

def addGroupStep (intake : Intake) (removed removedGroups : List String) (o : Ordinals)
    (out : List Group) (raw : RawGroup) : Except String Group := do
  let name ← groupName raw.name
  refuse (foldText name ∈ out.map (fun g => foldText g.name) ∨
    (foldText name ∈ headGroups intake ∧ foldText name ∉ removedGroups.map foldText))
    s!"group name {quoted name} collides case-insensitively"
  refuse (raw.members.length < 2) "added group requires at least two distinct members"
  let members ← gather (groupMemberStep intake removed o) [] raw.members
  return ⟨name, members⟩

def childrenOf (blockDefs : List BlockDef) : List Child := blockDefs.flatMap fun b => b.children.getD []

def opCount (blockDefs : List BlockDef) (raw : Raw) : ℕ :=
  raw.removed.length + raw.added.length + raw.transforms.length + raw.setLayer.length +
    raw.setPoints.length + raw.setCircle.length + raw.setArc.length + raw.setColor.length +
    raw.setLinetype.length + raw.setLineweight.length + raw.addedGroups.length +
    raw.removedGroups.length + blockDefs.length + (childrenOf blockDefs).length

def Raw.styleOps (raw : Raw) : Bool := raw.setColor ≠ [] || raw.setLinetype ≠ [] || raw.setLineweight ≠ []

def propertyInserts (intake : Intake) (index : Index) (raw : Raw) : Except String (List Entity) :=
  if raw.styleOps then insertsByHandle intake index else .ok []

def validateWith (A : Arith) (intake : Intake) (flags : Flags) (index : Index)
    (blockDefs : List BlockDef) (raw : Raw) : Except String Canonical := do
  let known := knownLinetypes intake
  refuse (opCount blockDefs raw = 0 ∧ flags.rejectNoop) "mutations must contain at least one operation"
  refuse (maxOperations < opCount blockDefs raw) "mutation operation bound exceeded"
  let removed ← gather (removeStep index) [] raw.removed
  refuse (raw.transforms ≠ [] ∧ flags.allowTransforms = false) "live mutation plans do not yet support transforms"
  let transforms ← gather (transformStep flags index removed) [] raw.transforms
  let targets : Targets := ⟨index, removed, blockDefs.flatMap members, transforms.map Transform.handle⟩
  let setLayer ← gather (setLayerStep flags targets) [] raw.setLayer
  let total := ((childrenOf blockDefs).map fun c => c.shape.points).sum
  boundPoints total
  let setPoints ← gather (setPointsStep A flags targets total) [] raw.setPoints
  let total := total + (setPoints.map fun s => s.pts.length).sum
  let edited := setPoints.map SetPoints.handle
  let setCircle ← gather (setCircleStep flags targets edited) [] raw.setCircle
  let edited := edited ++ setCircle.map SetCircle.handle
  let setArc ← gather (setArcStep flags targets edited) [] raw.setArc
  let placed ← gather (addStep ⟨A, intake, flags, index, blockDefs.map name⟩ total) [] raw.added
  let styles ← stylesOf known raw.added
  let sorted := sortAdded A placed
  let ordinals : Ordinals := ⟨sorted, raw.added⟩
  let inserts ← propertyInserts intake index raw
  let removedGroups ← gather (removeGroupStep intake) [] raw.removedGroups
  let groups ← gather (addGroupStep intake removed removedGroups ordinals) [] raw.addedGroups
  let setColor ← gather (styleStep flags intake targets inserts colorRule) [] raw.setColor
  let setLinetype ← gather (styleStep flags intake targets inserts (linetypeRule known)) [] raw.setLinetype
  let setLineweight ← gather (styleStep flags intake targets inserts lineweightRule) [] raw.setLineweight
  let canonical : Canonical :=
    { blockDefs := blockDefs.map fun b => { b with insert := ordinals.of b.insert }
      addedGroups := sortOn Group.name groups
      removedGroups := sortOn id removedGroups
      setColor := sortByValue setColor
      setLinetype := sortByValue setLinetype
      setLineweight := sortByValue setLineweight
      added := sorted.map (styled styles)
      removed := sortOn id removed
      removedKinds := sortOn fst (removedKinds index removed)
      transforms := sortOn Transform.handle transforms
      setLayer := sortOn SetLayer.handle setLayer
      setPoints := sortOn SetPoints.handle setPoints
      setCircle := sortOn SetCircle.handle setCircle
      setArc := sortOn SetArc.handle setArc }
  refuse (maxPlanBytes < A.bytes canonical) "canonical mutation data exceeds the byte bound"
  return canonical

def Raw.empty : Raw := ⟨[], [], [], [], [], [], [], [], [], [], [], [], []⟩

def addKinds : List String := ["LWPOLYLINE", "LINE", "CIRCLE", "ARC"]

def RawChild.addition (raw : RawChild) : RawAdded :=
  { raw.toRawAdded with handle := some "block-child", color := raw.aci.or raw.color }

def childOf (A : Arith) (child : Added) : Except String Child :=
  match child.shape with
  | .lwpolyline closed pts _ => do
    planarUp (if closed then worldToOcs A pts else worldToOcsAny A pts)
    return ⟨child.layer, .lwpolyline closed pts none, child.style⟩
  | .line p q => do
    refuse (p = q) "block child has zero length"
    return ⟨child.layer, child.shape, child.style⟩
  | .circle _ r => do
    refuse (r ≤ 0) "block child r must be positive"
    return ⟨child.layer, child.shape, child.style⟩
  | .arc _ r start stop => do
    refuse (r ≤ 0) "block child r must be positive"
    refuse (noSweep start stop) "block child has no sweep"
    return ⟨child.layer, child.shape, child.style⟩
  | _ => return ⟨child.layer, child.shape, child.style⟩

def validateBlockChild (A : Arith) (intake : Intake) (index : Index) (raw : RawChild) : Except String Child := do
  refuse (raw.handle ≠ none) "block children carry no handle"
  refuse (∀ kind ∈ addKinds, raw.kind ≠ some kind) "block child kind must be LINE, LWPOLYLINE, CIRCLE or ARC"
  refuse (raw.xdata ≠ none) "block children carry no xdata"
  refuse (raw.aci ≠ none ∧ raw.color ≠ none) "block child has duplicate colour fields"
  let canonical ← validateWith A intake .default index [] { Raw.empty with added := [raw.addition] }
  let child ← demand canonical.added.head? "list index out of range"
  childOf A child

def definitionName (occupied : List String) (name : String) : Except String Unit := do
  refuse (¬(1 ≤ name.length ∧ name.length ≤ 255) ∨ name.toList.head? = some '*' ∨
    ¬name.toList.all fun c => printable c && c ≠ '|')
    "block definition name must use the INSERT-name charset"
  refuse (foldText name ∈ occupied) "block definition name collides case-insensitively with the catalogue"

def grouped (intake : Intake) (handle : String) : Prop :=
  (∃ g ∈ intake.groups.getD [], upperText handle ∈ g.members.map upperText) ∨
    upperText handle ∈ intake.groupMemberships.map upperText
  deriving Decidable

def byBlock (p : PropRecord) : Prop :=
  p.aci = some 0 ∨ foldText (p.linetype.getD "ByLayer") = "byblock" ∨ p.lineweight = some (-2)
  deriving Decidable

def Reactor.isDimension (dimensions : List String) : Reactor → Bool
  | .handle h => upperText h ∈ dimensions
  | .object kind => kind = some "DIMENSION"

def dimensionDepends (intake : Intake) (handle : String) (entity : Entity) : Prop :=
  entity.dimensionRefs ∨ entity.dimensionRef ∨
    (entity.reactors.any (Reactor.isDimension
      ((intake.rows .dimensions).map fun d => upperText (d.handle.getD ""))) = true) ∨
    ∃ d ∈ intake.rows .dimensions, upperText handle ∈ d.associated.map upperText
  deriving Decidable

def memberKinds : List String := ["LINE", "LWPOLYLINE", "CIRCLE", "ARC"]

def memberStep (intake : Intake) (index : Index) (raw : Raw) (used : List String)
    (out : List String) (h : String) : Except String String := do
  let h ← existingHandle h "block member"
  refuse (upperText h ∈ out.map upperText ∨ upperText h ∈ used.map upperText)
    "block members must be distinct across definitions"
  let (kind, entity) ← demand (index.get h)
    "block member must be a committed LINE, straight LWPOLYLINE, CIRCLE or ARC; nested INSERT is excluded"
  refuse (entity.kind.getD kind.name ∉ memberKinds) "block member kind must be LINE, LWPOLYLINE, CIRCLE or ARC"
  refuse (¬inModelSpace entity) "block members must be model-space entities, never nested"
  refuse (entity.normal ≠ none) "block members must be planar with normal +Z"
  refuse ((entity.nrm.getD upNormal).length ≠ 3 ∨ ¬normalIsUp entity.nrm)
    "block members must be planar with normal +Z"
  refuse (entity.bulges ≠ none ∨ entity.bulge.getD 0 ≠ 0)
    "block LWPOLYLINE must have straight segments, every bulge 0"
  refuse (entity.width.getD 0 ≠ 0) "block LWPOLYLINE must have zero constant and vertex width"
  refuse (grouped intake h) "block member belongs to a GROUP; ungroup it first"
  refuse (byBlock (((intake.properties.bind fun d => d.get h).or entity.properties).getD
    ⟨none, none, none, none⟩)) "block members cannot carry ByBlock colour, linetype or lineweight"
  refuse (dimensionDepends intake h entity) "block member is referenced by a DIMENSION association or reactor"
  refuse (h ∈ raw.transforms.map RawTransform.handle) "block members cannot be transformed; use set_points"
  refuse (h ∈ raw.setColor.map StyleOp.handle ∨ h ∈ raw.setLinetype.map StyleOp.handle ∨
    h ∈ raw.setLineweight.map StyleOp.handle)
    "block members keep their colour, linetype and lineweight; change them after the block exists"
  refuse (h ∉ raw.removed) "each block member must also be in removed for atomic REPLACE"
  return h

def expectedOrder (members : List String) (children : ℕ) : List String :=
  members.map (fun h => s!"H:{h}") ++ (range children).map fun i => s!"C:{i}"

def checkOrder (members : List String) (children : ℕ) (order : Option (List String)) : Except String Unit := do
  refuse (children ≠ 0 ∧ order = none) "block order is required with inline children"
  refuse (∃ listed, order = some listed ∧
    ¬(listed.length = (expectedOrder members children).dedup.length ∧
      (∀ ref ∈ listed, ref ∈ expectedOrder members children) ∧
      ∀ ref ∈ expectedOrder members children, ref ∈ listed))
    "block order must name each member and inline child exactly once"

def isInsertOf (name : String) (raw : RawAdded) : Bool :=
  raw.kind = some "INSERT" && foldText (raw.name.getD "") = foldText name

def matchingInsert (added : List RawAdded) (raw : RawBlockDef) : Except String ℕ := do
  refuse (¬(0 ≤ raw.insert ∧ raw.insert < added.length)) "block insert ordinal must point at its matching INSERT"
  let insert := (added[raw.insert.toNat]?).getD .blank
  refuse (added.countP (isInsertOf raw.name) ≠ 1 ∨ insert.kind ≠ some "INSERT" ∨
    insert.name ≠ some raw.name ∨ insert.layer ≠ some "0" ∨ insert.pt ≠ some raw.base ∨
    insert.rot ≠ some 0 ∨ insert.scale ≠ some [1, 1, 1])
    "block insert must match name and base on layer 0, rotation 0, scale 1,1,1"
  return raw.insert.toNat

def blockDefStep (A : Arith) (intake : Intake) (index : Index) (raw : Raw) (out : List BlockDef)
    (b : RawBlockDef) : Except String BlockDef := do
  definitionName ((intake.blocks.elim [] fun d => d.rows).map (fun row => foldText row.1) ++
    out.map fun d => foldText d.name) b.name
  refuse (b.base.length ≠ 3) "block definition base must have three components"
  let base ← point3 (some b.base) "block base"
  let childrenRaw := b.children.getD []
  refuse (¬(1 ≤ b.members.length + childrenRaw.length ∧ b.members.length + childrenRaw.length ≤ 60))
    "block definition requires 1..60 committed members and inline children"
  let children ← gather (fun _ c => validateBlockChild A intake index c) [] childrenRaw
  let members ← gather (memberStep intake index raw (out.flatMap members)) [] b.members
  checkOrder members children.length b.order
  let insert ← matchingInsert raw.added b
  return ⟨b.name, base.rounded 3, members, insert, b.children.map fun _ => children, b.order⟩

def startsWithAny (starts : List String) (s : String) : Bool :=
  starts.any fun start => start.toList.isPrefixOf s.toList

def validateBlockDefs (A : Arith) (intake : Intake) (index : Index) (raw : Raw) :
    Except String (List BlockDef) := do
  if raw.blockDefs = [] then return []
  refuse (intake.memberEvidenceCovered = false ∨
    intake.parseErrors.any (startsWithAny ["BM:", "MEC:"]) = true)
    "member evidence unavailable in this inspection"
  let listed := (intake.blocks.elim [] fun d => d.rows).length
  let total := intake.blocksCapped.getD listed
  refuse (listed < total)
    (s!"the block catalogue is incomplete: {total} definitions, {listed} listed; " ++
      "create the block on a drawing whose catalogue fits the display cap")
  let defs ← gather (blockDefStep A intake index raw) [] raw.blockDefs
  return sortOn name defs

def validateMutations (A : Arith) (intake : Intake) (flags : Flags) (raw : Raw) : Except String Canonical := do
  let index ← indexIntake intake
  let blockDefs ← validateBlockDefs A intake index raw
  validateWith A intake flags index blockDefs raw

end LeafWeb.Mutation
