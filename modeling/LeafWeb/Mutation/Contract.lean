import LeafWeb.Lib.Dict
import Mathlib.Data.Rat.Defs

/-! The records of the mutation contract. A field is `none` where the JSON object does not have it. A set
with wrong types or unknown fields is refused before its operations are looked at and has no counterpart. -/

namespace LeafWeb.Mutation

open Lib

structure Pt where
  (x y z : ℚ)
  deriving DecidableEq

def Pt.raw (p : Pt) : List ℚ := [p.x, p.y, p.z]

structure PropRecord where
  aci : Option ℤ
  rgb : Option (List ℤ)
  linetype : Option String
  lineweight : Option ℤ

inductive Space
  | name (s : String)
  | number (q : ℚ)
  deriving DecidableEq

inductive Reactor
  | handle (s : String)
  | object (kind : Option String)

structure Entity where
  (handle layer kind : Option String)
  closed : Option Bool
  pts : Option (List (List ℚ))
  bulges : Option (List ℚ)
  (bulge width : Option ℚ)
  xdata : Option String
  c : Option (List ℚ)
  (r startDeg endDeg : Option ℚ)
  (nrm normal : Option (List ℚ))
  space : Option Space
  (paperSpace paperspace block : Bool)
  properties : Option PropRecord
  dimensionRefs : Bool
  reactors : List Reactor
  dimensionRef : Bool
  associated : List String
  name : Option String
  (x y z rot : Option ℚ)
  scale : Option (List ℚ)
  (type style : Option String)
  (p1 p2 dimline : Option (List ℚ))
  (rotationDeg measurement : Option ℚ)
  (text textstyle : Option String)
  (height arrow dogleg : Option ℚ)
  attachment : Option ℤ
  (landing doglegDir textpt : Option (List ℚ))
  color : Option ℤ
  linetype : Option String
  lineweight : Option ℤ
  rest : List (String × String)

def Entity.blank : Entity :=
  ⟨none, none, none, none, none, none, none, none, none, none, none, none, none, none, none, none, false,
    false, false, none, false, [], false, [], none, none, none, none, none, none, none, none, none, none,
    none, none, none, none, none, none, none, none, none, none, none, none, none, none, none, []⟩

structure BlockChild where
  handle : Option String
  (kind layer : String)
  properties : PropRecord
  pts : Option (List (List ℚ))
  closed : Option Bool
  nrm : Option (List ℚ)
  elev : Option ℚ
  c : Option (List ℚ)
  (r startDeg endDeg : Option ℚ)

structure Block where
  base : Option (List ℚ)
  children : Option (List BlockChild)
  count : Option ℕ
  complete : Option Bool
  baseUnknown : Bool
  digest : Option String

structure GroupRow where
  name : String
  members : List String
  (flags selectable : Option ℤ)

structure MlStyle where
  name : Option String
  segments : Option ℤ
  textstyle : String
  (height arrow dogleg gap : ℚ)

inductive Field
  | polylines
  | circles
  | arcs
  | texts
  | inserts
  | dimensions
  | mleaders
  | points
  | ellipses
  deriving DecidableEq

structure Intake where
  arrays : Field → Option (List Entity)
  layers : Option (List String)
  blocks : Option (Dict String Block)
  blocksCapped : Option ℕ
  memberEvidenceCovered : Bool
  parseErrors : List String
  groups : Option (List GroupRow)
  groupMemberships : List String
  properties : Option (Dict String PropRecord)
  dimstyles : Option (List String)
  mlstyles : Option (List MlStyle)
  blockMembers : Dict String (Option String)
  created : Option (List (ℕ × String))

def Intake.rows (intake : Intake) (field : Field) : List Entity := (intake.arrays field).getD []

structure RawAdded where
  (handle kind layer : Option String)
  closed : Option Bool
  pts : Option (List (List ℚ))
  xdata : Option String
  c : Option (List ℚ)
  (r startDeg endDeg : Option ℚ)
  name : Option String
  pt : Option (List ℚ)
  rot : Option ℚ
  scale : Option (List ℚ)
  (style text dimtype : Option String)
  (def1 def2 dimline : Option (List ℚ))
  (rotation measurement : Option ℚ)
  color : Option ℤ
  linetype : Option String
  lineweight : Option ℤ
  deriving DecidableEq

def RawAdded.blank : RawAdded :=
  ⟨none, none, none, none, none, none, none, none, none, none, none, none, none, none, none, none,
    none, none, none, none, none, none, none, none, none⟩

inductive Shape
  | lwpolyline (closed : Bool) (pts : List Pt) (xdata : Option String)
  | line (p q : Pt)
  | circle (c : Pt) (r : ℚ)
  | arc (c : Pt) (r startDeg endDeg : ℚ)
  | insert (name : String) (pt : Pt) (rot : ℚ) (scale : Pt)
  | linear (def1 def2 dimline : Pt) (style : String) (measurement rotation : ℚ)
  | aligned (def1 def2 dimline : Pt) (style : String) (measurement : ℚ)
  | mleader (style : String) (p q : Pt) (text : String)
  deriving DecidableEq

structure Style where
  color : Option ℤ
  linetype : Option String
  lineweight : Option ℤ
  deriving DecidableEq

def Style.plain : Style := ⟨none, none, none⟩

structure Placed where
  (handle layer : String)
  shape : Shape
  deriving DecidableEq

structure Added extends Placed where
  style : Style
  deriving DecidableEq

def Shape.raw : Shape → RawAdded
  | .lwpolyline closed pts xdata =>
    { RawAdded.blank with closed := some closed, pts := some (pts.map Pt.raw), xdata }
  | .line p q => { RawAdded.blank with kind := some "LINE", pts := some [p.raw, q.raw] }
  | .circle c r => { RawAdded.blank with kind := some "CIRCLE", c := some c.raw, r := some r }
  | .arc c r s e =>
    { RawAdded.blank with
      kind := some "ARC", c := some c.raw, r := some r, startDeg := some s, endDeg := some e }
  | .insert name pt rot scale =>
    { RawAdded.blank with
      kind := some "INSERT", name := some name, pt := some pt.raw, rot := some rot,
      scale := some scale.raw }
  | .linear def1 def2 dimline style measurement rotation =>
    { RawAdded.blank with
      kind := some "DIMENSION", dimtype := some "LINEAR", def1 := some def1.raw,
      def2 := some def2.raw, dimline := some dimline.raw, style := some style,
      measurement := some measurement, rotation := some rotation }
  | .aligned def1 def2 dimline style measurement =>
    { RawAdded.blank with
      kind := some "DIMENSION", dimtype := some "ALIGNED", def1 := some def1.raw,
      def2 := some def2.raw, dimline := some dimline.raw, style := some style,
      measurement := some measurement }
  | .mleader style p q text =>
    { RawAdded.blank with
      kind := some "MLEADER", style := some style, pts := some [p.raw, q.raw], text := some text }

def Added.raw (a : Added) : RawAdded :=
  { a.shape.raw with
    handle := some a.handle, layer := some a.layer, color := a.style.color,
    linetype := a.style.linetype, lineweight := a.style.lineweight }

structure RawTransform where
  handle : String
  (dx dy rotationDeg : Option ℚ)

structure Transform where
  handle : String
  (dx dy rotationDeg : ℚ)
  deriving DecidableEq

structure SetLayer where
  (handle layer : String)
  deriving DecidableEq

structure RawSetPoints where
  handle : String
  pts : List (List ℚ)
  closed : Option Bool

structure SetPoints where
  handle : String
  closed : Bool
  pts : List Pt
  deriving DecidableEq

structure RawSetCircle where
  handle : String
  c : List ℚ
  r : ℚ

structure SetCircle where
  handle : String
  c : Pt
  r : ℚ
  deriving DecidableEq

structure RawSetArc where
  handle : String
  c : List ℚ
  (r startDeg endDeg : ℚ)

structure SetArc where
  handle : String
  c : Pt
  (r startDeg endDeg : ℚ)
  deriving DecidableEq

structure StyleOp (V : Type) where
  handle : String
  value : V
  deriving DecidableEq

inductive RawMember
  | handle (h : String)
  | add (ordinal : ℤ)

inductive Member
  | handle (h : String)
  | add (ordinal : ℕ)
  deriving DecidableEq

structure RawGroup where
  name : String
  members : List RawMember

structure Group where
  name : String
  members : List Member
  deriving DecidableEq

structure RawChild extends RawAdded where
  aci : Option ℤ

structure Child where
  layer : String
  shape : Shape
  style : Style
  deriving DecidableEq

structure RawBlockDef where
  name : String
  base : List ℚ
  members : List String
  insert : ℤ
  children : Option (List RawChild)
  order : Option (List String)

structure BlockDef where
  name : String
  base : Pt
  members : List String
  insert : ℕ
  children : Option (List Child)
  order : Option (List String)
  deriving DecidableEq

structure Raw where
  added : List RawAdded
  removed : List String
  transforms : List RawTransform
  addedGroups : List RawGroup
  removedGroups : List String
  blockDefs : List RawBlockDef
  setLayer : List SetLayer
  setPoints : List RawSetPoints
  setCircle : List RawSetCircle
  setArc : List RawSetArc
  setColor : List (StyleOp ℤ)
  setLinetype : List (StyleOp String)
  setLineweight : List (StyleOp ℤ)

inductive Kind
  | lwpolyline
  | circle
  | arc
  | dimension
  | multileader
  deriving DecidableEq

structure Canonical where
  blockDefs : List BlockDef
  addedGroups : List Group
  removedGroups : List String
  setColor : List (StyleOp ℤ)
  setLinetype : List (StyleOp String)
  setLineweight : List (StyleOp ℤ)
  added : List Added
  removed : List String
  removedKinds : List (String × Kind)
  transforms : List Transform
  setLayer : List SetLayer
  setPoints : List SetPoints
  setCircle : List SetCircle
  setArc : List SetArc
  deriving DecidableEq

def Transform.raw (t : Transform) : RawTransform := ⟨t.handle, some t.dx, some t.dy, some t.rotationDeg⟩

def SetPoints.raw (s : SetPoints) : RawSetPoints := ⟨s.handle, s.pts.map Pt.raw, some s.closed⟩

def SetCircle.raw (s : SetCircle) : RawSetCircle := ⟨s.handle, s.c.raw, s.r⟩

def SetArc.raw (s : SetArc) : RawSetArc := ⟨s.handle, s.c.raw, s.r, s.startDeg, s.endDeg⟩

def Member.raw : Member → RawMember
  | .handle h => .handle h
  | .add i => .add i

def Group.raw (g : Group) : RawGroup := ⟨g.name, g.members.map Member.raw⟩

def Shape.childKind : Shape → String
  | .lwpolyline .. => "LWPOLYLINE"
  | .line .. => "LINE"
  | .circle .. => "CIRCLE"
  | _ => "ARC"

def Child.raw (c : Child) : RawChild :=
  { c.shape.raw with
    kind := some c.shape.childKind, layer := some c.layer, linetype := c.style.linetype,
    lineweight := c.style.lineweight, aci := c.style.color }

def BlockDef.raw (b : BlockDef) : RawBlockDef :=
  ⟨b.name, b.base.raw, b.members, b.insert, b.children.map (List.map Child.raw), b.order⟩

def Canonical.raw (c : Canonical) : Raw where
  added := c.added.map Added.raw
  removed := c.removed
  transforms := c.transforms.map Transform.raw
  addedGroups := c.addedGroups.map Group.raw
  removedGroups := c.removedGroups
  blockDefs := c.blockDefs.map BlockDef.raw
  setLayer := c.setLayer
  setPoints := c.setPoints.map SetPoints.raw
  setCircle := c.setCircle.map SetCircle.raw
  setArc := c.setArc.map SetArc.raw
  setColor := c.setColor
  setLinetype := c.setLinetype
  setLineweight := c.setLineweight

/-- The floating-point and JSON functions of the runtime, over rationals: roots, directions, texts of numbers
and additions, the bytes of a canonical set. -/
structure Arith where
  sqrt : ℚ → ℚ
  turned : ℚ → ℚ × ℚ
  towards : ℚ → ℚ → ℚ × ℚ
  text : ℚ → String
  json : Placed → String
  bytes : Canonical → ℕ
  turned_unit : ∀ d, (turned d).1 ^ 2 + (turned d).2 ^ 2 = 1
  towards_unit : ∀ x y, (towards x y).1 ^ 2 + (towards x y).2 ^ 2 = 1

end LeafWeb.Mutation
