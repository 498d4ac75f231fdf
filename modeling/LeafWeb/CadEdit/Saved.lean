import LeafWeb.CadEdit.PlanParts

/-! What a plan is for, apart from how it is computed: what a reader sees of an entity, and when two drawings
agree. -/

namespace LeafWeb.CadEdit

open Lib Prod

structure LeaderLook where
  location : Option Point
  (height arrow dogleg : Option ℚ)

def MleaderPrint.look (p : MleaderPrint) : LeaderLook := ⟨point3 p.textLocation, p.height, p.arrow, p.dogleg⟩

abbrev Widths := ℚ × List ℚ × List ℚ

inductive Shape
  | circle (c : Point) (r : ℚ)
  | arc (c : Point) (r startDeg endDeg : ℚ)
  | linear (closed : Bool) (pts : List Point) (bulges : List ℚ) (widths : Option Widths)
  | insert (name : String) (ip : Point) (rot : ℚ) (scale : Point)
      (columns rows columnSpacing rowSpacing : ℚ)
  | dimension (dimtype : String) (def1 def2 dimline : Point) (style : String) (rotation : ℚ)
  | mleader (pts : Option (List Point)) (text style : Option String) (look : LeaderLook)
  | other (print : OpaquePrint) (dimtype : Option String) (def1 def2 dimline : Option Point)

structure Drawn where
  layer : String
  shape : Shape
  props : Props
  normal : Point

def straight (pts : List Point) : List ℚ := List.replicate pts.length 0

def insertionZ (e : Entity) : ℚ := ((point3 e.ip).map Point.z).getD 0

def unitZ : Point := ⟨0, 0, 1⟩

def normalOf (e : Entity) : Point := (point3 e.normal).getD unitZ

/-- The constant width and those at the start and the end of each segment, unless all are zero. -/
def widthsOf (e : Entity) : Option Widths :=
  let zeros := (e.vertices.getD []).map fun _ => 0
  if widened e then some (e.constantWidth.getD 0, e.startWidths.getD zeros, e.endWidths.getD zeros) else none

def drawnAs (e : Entity) : Geometry → Drawn
  | .circle layer c r props => ⟨layer, .circle c r, props, normalOf e⟩
  | .arc layer c r startDeg endDeg props => ⟨layer, .arc c r startDeg endDeg, props, normalOf e⟩
  | .line layer pts props => ⟨layer, .linear false pts (straight pts) (widthsOf e), props, normalOf e⟩
  | .polyline layer closed pts bulges _ props =>
    ⟨layer, .linear closed pts bulges (widthsOf e), props, normalOf e⟩
  | .insert p props =>
    ⟨p.layer, .insert p.name ⟨p.point.x, p.point.y, insertionZ e⟩ p.rot p.scale p.columns p.rows
      p.columnSpacing p.rowSpacing, props, normalOf e⟩
  | .dimension p =>
    ⟨p.layer, .dimension p.dimtype p.def1 p.def2 p.dimline p.style p.rotation, propsOf e, normalOf e⟩
  | .mleader pts p _ => ⟨p.layer, .mleader pts p.text p.style p.look, p.props, normalOf e⟩
  | .opaqueKind p =>
    ⟨nonempty p.layer "0", .other p e.dimtype (point3 e.def1) (point3 e.def2) (point3 e.dimline), p.props,
      normalOf e⟩

def drawn (e : Entity) : Option Drawn := (geometryOf e).map (drawnAs e)

def drawnAt (es : List Entity) (h : String) : Option Drawn := (es.find? fun e => e.hex = h).bind drawn

def sameOption {α : Type} (same : α → α → Bool) : Option α → Option α → Bool
  | some a, some b => same a b
  | none, none => true
  | _, _ => false

/-- Equal up to the tolerance and whole turns. -/
def sameAngle (a b : ℚ) : Bool := sameNumber (a - 360 * mathRound ((a - b) / 360)) b

def sameLook (a b : LeaderLook) : Bool :=
  sameOption samePoint a.location b.location && sameOption sameNumber a.height b.height &&
    sameOption sameNumber a.arrow b.arrow && sameOption sameNumber a.dogleg b.dogleg

def sameShape : Shape → Shape → Bool
  | .circle c r, .circle c' r' => samePoint c c' && sameNumber r r'
  | .arc c r s e, .arc c' r' s' e' =>
    samePoint c c' && sameNumber r r' && sameNumber s s' && sameNumber e e'
  | .linear closed pts bulges widths, .linear closed' pts' bulges' widths' =>
    closed = closed' && samePoints pts pts' && allSame sameNumber bulges bulges' && widths = widths'
  | .insert n p r s c w cs ws, .insert n' p' r' s' c' w' cs' ws' =>
    n = n' && samePoint p p' && sameAngle r r' && samePoint s s' && c = c' && w = w' && cs = cs' && ws = ws'
  | .dimension d p q l s r, .dimension d' p' q' l' s' r' =>
    d = d' && samePoint p p' && samePoint q q' && samePoint l l' && s = s' && sameAngle r r'
  | .mleader pts text style look, .mleader pts' text' style' look' =>
    sameOption samePoints pts pts' && text = text' && style = style' && sameLook look look'
  | .other p d a b c, .other p' d' a' b' c' =>
    p = p' && d = d' && sameOption samePoint a a' && sameOption samePoint b b' && sameOption samePoint c c'
  | _, _ => false

def sameDrawn (t : JsText) (a b : Drawn) : Bool :=
  a.layer = b.layer && sameShape a.shape b.shape && sameProps t a.props b.props && samePoint a.normal b.normal

def Part.on {α : Type} (p : Part α) (m : Mutations) (h : String) : Option α :=
  (p.pick m).find? fun a => p.key a = h

variable (m : Mutations) (h : String)

def editShape : Shape → Shape
  | .circle c r =>
    match Part.setCircle.on m h with
    | some (_, c, r) => .circle c r
    | none => .circle c r
  | .arc c r s e =>
    match Part.setArc.on m h with
    | some a => .arc a.c a.r a.startDeg a.endDeg
    | none => .arc c r s e
  | .linear closed pts bulges widths =>
    match Part.setPoints.on m h with
    | some p =>
      if p.pts.length = pts.length then .linear p.closed p.pts bulges widths
      else .linear p.closed p.pts (straight p.pts) none
    | none => .linear closed pts bulges widths
  | s => s

def editProps (props : Props) : Props where
  aci := ((Part.setColor.on m h).map snd).getD props.aci
  trueColor := if (Part.setColor.on m h).isSome then none else props.trueColor
  linetype := ((Part.setLinetype.on m h).map snd).getD props.linetype
  lineweight := ((Part.setLineweight.on m h).map snd).getD props.lineweight

def edit (d : Drawn) : Drawn where
  layer := ((Part.setLayer.on m h).map snd).getD d.layer
  shape := editShape m h d.shape
  props := editProps m h d.props
  normal := d.normal

-- The writer derives where the text of a new MLEADER stands and its sizes from what the plan says.
variable (look : String → List Point → String → LeaderLook)

def AddedShape.shape : AddedShape → Shape
  | .mleader style pts text => .mleader (some pts) (some text) (some style) (look style pts text)
  | .circle c r => .circle c r
  | .arc c r s e => .arc c r s e
  | .line pts => .linear false pts (straight pts) none
  | .insert name pt rot scale => .insert name pt rot scale 1 1 0 0
  | .dimension dimtype def1 def2 dimline style rotation =>
    .dimension dimtype def1 def2 dimline style (rotation.getD 0)
  | .polyline closed pts => .linear closed pts (straight pts) none

def plainProps : Props := ⟨256, none, "ByLayer", -1⟩

def AddedRecord.drawn (r : AddedRecord) : Drawn where
  layer := r.layer
  shape := r.shape.shape look
  props := ⟨r.style.color.getD 256, none, r.style.linetype.getD "ByLayer", r.style.lineweight.getD (-1)⟩
  normal := unitZ

def applied (committed : Projection) : Option Drawn :=
  if h ∈ m.removed then none
  else
    match m.added.find? fun r => r.handle = h with
    | some r => some (r.drawn look)
    | none => (drawnAt committed.entities h).map (edit m h)

def memberOf : GroupMember → String
  | .handle x => x
  | .add i => (m.added[i]?.map AddedRecord.handle).getD ""

def appliedGroup (t : JsText) (committed : Projection) (name : String) : Option (List String) :=
  match m.addedGroups.find? fun g => g.name = name with
  | some g => some (g.members.map (memberOf m))
  | none =>
    if name ∈ m.removedGroups then none
    else ((committed.groupsByName t).get name).map fun g =>
      (memberHandles g).filter fun x => x ∉ m.removed

def sameGroup : Option (List String) → Option (List String) → Prop
  | some a, some b => ∀ x, x ∈ a ↔ x ∈ b
  | none, none => True
  | _, _ => False

variable (t : JsText) (committed current : Projection)

def Saves (m : Mutations) : Prop :=
  (∀ h, sameOption (sameDrawn t) (applied m h look committed) (drawnAt current.entities h)) ∧
    ∀ name, sameGroup (appliedGroup m t committed name) (((current.groupsByName t).get name).map memberHandles)

structure WellFormed (p : Projection) : Prop where
  named : ∀ e ∈ p.entities, e.hex ≠ ""
  distinct : (p.entities.map Entity.hex).Nodup
  readable : ∀ e ∈ p.entities, geometryOf e ≠ none

def Projection.has (p : Projection) (h : String) : Prop := ∃ e ∈ p.entities, e.hex = h

/-- A new entity has nothing that its record leaves out. -/
def Addable (e : Entity) : Prop :=
  samePoint unitZ (normalOf e) ∧
  match geometryOf e with
  | none | some (.opaqueKind _) => True
  | some (.dimension p) =>
    sameProps t plainProps (propsOf e) ∧ (p.dimtype = "LINEAR" → sameAngle (normalizedDeg p.rotation) p.rotation)
  | some (.mleader pts p _) =>
    sameProps t plainProps (propsOf e) ∧ sameLook (look (p.style.getD "") (pts.getD []) (p.text.getD "")) p.look
  | some (.insert p props) =>
    props.trueColor = none ∧ sameNumber 0 (insertionZ e) ∧ sameAngle (normalizedDeg p.rot) p.rot ∧
      p.columns = 1 ∧ p.rows = 1 ∧ p.columnSpacing = 0 ∧ p.rowSpacing = 0
  | some (.line ..) | some (.polyline ..) => widthsOf e = none ∧ (propsOf e).trueColor = none
  | some (.circle ..) | some (.arc ..) => (propsOf e).trueColor = none

def ColourKept (e e' : Entity) : Prop := (propsOf e').trueColor ≠ none → (propsOf e).aci = (propsOf e').aci

def vertexCount (e : Entity) : ℕ := (((geometryOf e).bind linearOf).map fun a => a.pts.length).getD 0

/-- Another number of vertices takes the widths away. -/
def WidthsKept (e e' : Entity) : Prop :=
  (if vertexCount e = vertexCount e' then widthsOf e else none) = widthsOf e'

/-- An entity of both lists differs in nothing that the comparison leaves out. -/
def Compared (e e' : Entity) : Prop :=
  samePoint (normalOf e) (normalOf e') ∧
  match geometryOf e with
  | none | some (.mleader _ _ _) => True
  | some (.dimension _) => sameProps t (propsOf e) (propsOf e')
  | some (.opaqueKind _) =>
    e.dimtype = e'.dimtype ∧ sameOption samePoint (point3 e.def1) (point3 e'.def1) ∧
      sameOption samePoint (point3 e.def2) (point3 e'.def2) ∧
      sameOption samePoint (point3 e.dimline) (point3 e'.dimline)
  | some (.insert _ _) => sameNumber (insertionZ e) (insertionZ e') ∧ ColourKept e e'
  | some (.line ..) | some (.polyline ..) => WidthsKept e e' ∧ ColourKept e e'
  | some (.circle ..) | some (.arc ..) => ColourKept e e'

/-- No group lists a handle that went, or, where its members still there are the current ones, a
handle that neither drawing has. -/
def GroupsNamed : Prop :=
  (∀ name g, (current.groupsByName t).get name = some g → ∀ x ∈ memberHandles g, committed.has x → current.has x) ∧
  ∀ name g g', (committed.groupsByName t).get name = some g →
    (current.groupsByName t).get name = some g' →
    (∀ x, x ∈ memberHandles g' ↔ x ∈ memberHandles g ∧ current.has x) →
    ∀ x ∈ memberHandles g, committed.has x ∨ current.has x

def Carried : Prop :=
  (∀ e ∈ current.entities, ¬committed.has e.hex → Addable look t e) ∧
  (∀ e ∈ committed.entities, ∀ e' ∈ current.entities, e.hex = e'.hex → Compared t e e') ∧
  GroupsNamed t committed current

end LeafWeb.CadEdit
