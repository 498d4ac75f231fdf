import LeafWeb.CadEdit.Degrees
import LeafWeb.CadEdit.Projection

/-! `diffPlan` of `web/src/cadedit/mutationDiff.js`: the plan from one entity list to the next, or a refusal. -/

namespace LeafWeb.CadEdit

open Lib Prod

/-- The text functions of the JavaScript runtime: `toLowerCase`, `toUpperCase`, the quoting of
`JSON.stringify`, `String` of a number that is not an integer and the order of strings. -/
structure JsText where
  (lower upper quote : String → String)
  spell : ℚ → String
  le : String → String → Bool
  lower_byLayer : lower "ByLayer" = "bylayer"

structure Group where
  name : String
  memberIds : Option (List String)

structure BlockDef where
  name : String
  digest : Option String
  base : RawArray
  children : Option (List Entity)
  complete : Option Bool
  baseUnknown : Bool
  deriving DecidableEq

structure Projection where
  entities : List Entity
  blocks : List BlockDef
  groups : List Group

structure Style where
  color : Option ℚ
  linetype : Option String
  lineweight : Option ℚ
  deriving DecidableEq

def Style.none : Style := ⟨.none, .none, .none⟩

inductive AddedShape
  | mleader (style : String) (pts : List Point) (text : String)
  | circle (c : Point) (r : ℚ)
  | arc (c : Point) (r startDeg endDeg : ℚ)
  | line (pts : List Point)
  | insert (name : String) (pt : Point) (rot : ℚ) (scale : Point)
  | dimension (dimtype : String) (def1 def2 dimline : Point) (style : String) (rotation : Option ℚ)
  | polyline (closed : Bool) (pts : List Point)
  deriving DecidableEq

structure AddedRecord where
  (handle layer : String)
  shape : AddedShape
  style : Style
  deriving DecidableEq

structure SetPoints where
  handle : String
  closed : Bool
  pts : List Point
  deriving DecidableEq

structure SetArc where
  handle : String
  c : Point
  (r startDeg endDeg : ℚ)
  deriving DecidableEq

inductive GroupMember
  | handle (h : String)
  | add (ordinal : ℕ)
  deriving DecidableEq

structure AddedGroup where
  name : String
  members : List GroupMember
  deriving DecidableEq

inductive ChildRef
  | member (handle : String)
  | inline (n : ℕ)
  deriving DecidableEq

structure InlineChild where
  layer : String
  shape : AddedShape
  style : Style
  deriving DecidableEq

structure BlockDefinition where
  name : String
  base : Point
  members : List String
  insert : ℕ
  children : Option (List InlineChild × List ChildRef)
  deriving DecidableEq

inductive Cause
  | movedReference
  | trueColour
  | groupSingleton
  | blockDefUnmatched
  | opaqueKind
  | curvedGeometry
  deriving DecidableEq

structure Refusal where
  count : ℕ
  reason : String
  kind : Option String
  cause : Option Cause
  deriving DecidableEq

structure Mutations where
  blockDefs : List BlockDefinition
  added : List AddedRecord
  addedGroups : List AddedGroup
  (removedGroups removed : List String)
  setLayer : List (String × String)
  setPoints : List SetPoints
  setCircle : List (String × Point × ℚ)
  setArc : List SetArc
  setColor : List (String × ℚ)
  setLinetype : List (String × String)
  setLineweight : List (String × ℚ)
  deriving DecidableEq

def Mutations.empty : Mutations := ⟨[], [], [], [], [], [], [], [], [], [], [], []⟩

def Mutations.append (a b : Mutations) : Mutations where
  blockDefs := a.blockDefs ++ b.blockDefs
  added := a.added ++ b.added
  addedGroups := a.addedGroups ++ b.addedGroups
  removedGroups := a.removedGroups ++ b.removedGroups
  removed := a.removed ++ b.removed
  setLayer := a.setLayer ++ b.setLayer
  setPoints := a.setPoints ++ b.setPoints
  setCircle := a.setCircle ++ b.setCircle
  setArc := a.setArc ++ b.setArc
  setColor := a.setColor ++ b.setColor
  setLinetype := a.setLinetype ++ b.setLinetype
  setLineweight := a.setLineweight ++ b.setLineweight

def Mutations.count (m : Mutations) : ℕ :=
  m.blockDefs.length + m.addedGroups.length + m.removedGroups.length + m.added.length +
    m.removed.length + m.setLayer.length + m.setPoints.length + m.setCircle.length +
    m.setArc.length + m.setColor.length + m.setLinetype.length + m.setLineweight.length

structure Draft where
  ops : Mutations
  (hard soft : Option Refusal)

namespace Draft

def empty : Draft := ⟨.empty, none, none⟩

def append (a b : Draft) : Draft := ⟨a.ops.append b.ops, a.hard.or b.hard, a.soft.or b.soft⟩

instance : Append Draft := ⟨append⟩

def gather (l : List Draft) : Draft := l.foldl append empty

def push (ops : Mutations) : Draft := ⟨ops, none, none⟩

def refuse (reason : String) (kind : Option String) (cause : Option Cause) : Draft :=
  let refusal : Refusal := ⟨0, reason, kind, cause⟩
  match cause with
  | some .movedReference | some .trueColour | some .groupSingleton | some .blockDefUnmatched =>
    ⟨.empty, some refusal, none⟩
  | _ => ⟨.empty, none, some refusal⟩

end Draft

namespace Geometry

def kind : Geometry → String
  | circle .. => "CIRCLE"
  | arc .. => "ARC"
  | line .. => "LINE"
  | polyline .. => "LWPOLYLINE"
  | insert .. => "INSERT"
  | dimension .. => "DIMENSION"
  | mleader .. => "MLEADER"
  | opaqueKind .. => "OPAQUE"

def props : Geometry → Option Props
  | circle _ _ _ p => some p
  | arc _ _ _ _ _ p => some p
  | line _ _ p => some p
  | polyline _ _ _ _ _ p => some p
  | insert _ p => some p
  | dimension _ => none
  | mleader _ _ _ => none
  | opaqueKind print => some print.props

def trueColor (g : Geometry) : Option (List ℚ) := g.props.bind Props.trueColor

def opaqueType : Geometry → Option String
  | opaqueKind print => some print.type
  | _ => none

end Geometry

structure Linear where
  layer : String
  closed : Bool
  pts : List Point
  bulges : List ℚ
  curved : Bool
  props : Props

def linearOf : Geometry → Option Linear
  | .line layer pts props => some ⟨layer, false, pts, [], false, props⟩
  | .polyline layer closed pts bulges curved props =>
    some ⟨layer, closed, pts, bulges, curved, props⟩
  | _ => none

variable (t : JsText) (handle : String)

def styleOf (props : Props) : Style where
  color := if props.aci ≠ 256 then some props.aci else none
  linetype := if t.lower props.linetype ≠ "bylayer" then some props.linetype else none
  lineweight := if props.lineweight ≠ -1 then some props.lineweight else none

def addedRecord : Geometry → AddedRecord
  | .mleader pts print _ =>
    ⟨handle, print.layer, .mleader (print.style.getD "") (pts.getD []) (print.text.getD ""), .none⟩
  | .circle layer c r props => ⟨handle, layer, .circle c r, styleOf t props⟩
  | .arc layer c r startDeg endDeg props =>
    ⟨handle, layer, .arc c r startDeg endDeg, styleOf t props⟩
  | .line layer pts props => ⟨handle, layer, .line pts, styleOf t props⟩
  | .insert p props =>
    ⟨handle, p.layer, .insert p.name p.point (normalizedDeg p.rot) p.scale, styleOf t props⟩
  | .dimension p =>
    ⟨handle, p.layer, .dimension p.dimtype p.def1 p.def2 p.dimline p.style
      (if p.dimtype = "LINEAR" then some (normalizedDeg p.rotation) else none), .none⟩
  | .polyline layer closed pts _ _ props => ⟨handle, layer, .polyline closed pts, styleOf t props⟩
  -- never asked for: the additions loop refuses these
  | .opaqueKind print => ⟨handle, print.layer.getD "0", .line [], .none⟩

def changeLayer (was now : String) : Draft :=
  .push { Mutations.empty with setLayer := if was ≠ now then [(handle, now)] else [] }

/-- A true colour that appeared or changed is refused and ends the comparison. -/
def changeProps (kind : String) (was now : Props) (rest : Draft) : Draft :=
  if was.trueColor ≠ now.trueColor ∧ now.trueColor.isSome then
    .refuse s!"entity {handle} has a true colour the plan cannot carry" kind (some .trueColour)
  else
    Draft.push { Mutations.empty with
      setColor :=
        if was.aci ≠ now.aci ∨ (was.trueColor.isSome ∧ now.trueColor = none) then
          [(handle, now.aci)]
        else []
      setLinetype := if t.lower was.linetype ≠ t.lower now.linetype then [(handle, now.linetype)] else []
      setLineweight := if was.lineweight ≠ now.lineweight then [(handle, now.lineweight)] else [] } ++ rest

def changeCircle (c c' : Point) (r r' : ℚ) : Draft :=
  .push { Mutations.empty with
    setCircle := if samePoint c c' && sameNumber r r' then [] else [(handle, c', r')] }

def changeArc (c c' : Point) (r r' s s' e e' : ℚ) : Draft :=
  .push { Mutations.empty with
    setArc :=
      if samePoint c c' && sameNumber r r' && sameNumber s s' && sameNumber e e' then []
      else [⟨handle, c', r', s', e'⟩] }

def sameLinear (was now : Linear) : Bool :=
  was.closed = now.closed && samePoints was.pts now.pts && allSame sameNumber was.bulges now.bulges

def changePoints (was now : Linear) : Draft :=
  if sameLinear was now then .empty
  else if was.curved || now.curved then
    .refuse s!"polyline {handle} has curved segments the plan cannot carry" "LWPOLYLINE" (some .curvedGeometry)
  else .push { Mutations.empty with setPoints := [⟨handle, now.closed, now.pts⟩] }

def compareOpaque (was now : Geometry) : Draft :=
  let name := (was.opaqueType.or now.opaqueType).getD ""
  if now.trueColor.isSome ∧ was.trueColor ≠ now.trueColor then
    .refuse s!"entity {handle} has a true colour the plan cannot carry" name (some .trueColour)
  else if was = now then .empty
  else
    .refuse s!"entity {handle} is a {name} the plan cannot carry, and it changed" name (some .opaqueKind)

def changedKind (was now : Geometry) : Draft :=
  let wasKind := was.kind
  let nowKind := now.kind
  .refuse s!"entity {handle} changed kind from {wasKind} to {nowKind}, which the plan cannot express" none none

def comparePlan (was now : Geometry) : Draft :=
  match was, now with
  | .insert p props, .insert p' props' =>
    if p ≠ p' then
      .refuse s!"entity {handle} is a INSERT the plan cannot carry, and it changed" "INSERT" (some .movedReference)
    else changeLayer handle p.layer p'.layer ++ changeProps t handle "INSERT" props props' .empty
  | .mleader _ p _, .mleader _ p' _ =>
    if p = p' then .empty
    else
      .refuse s!"entity {handle} is a MLEADER the plan cannot carry, and it changed" "MLEADER" (some .opaqueKind)
  | .dimension p, .dimension p' =>
    if p = p' then .empty
    else
      .refuse s!"entity {handle} is a DIMENSION the plan cannot carry, and it changed" "DIMENSION"
        (some .movedReference)
  | .circle l c r props, .circle l' c' r' props' =>
    changeLayer handle l l' ++ changeProps t handle "CIRCLE" props props' (changeCircle handle c c' r r')
  | .arc l c r s e props, .arc l' c' r' s' e' props' =>
    changeLayer handle l l' ++ changeProps t handle "ARC" props props' (changeArc handle c c' r r' s s' e e')
  | was, now =>
    match linearOf was, linearOf now with
    | some a, some b =>
      changeLayer handle a.layer b.layer ++ changeProps t handle now.kind a.props b.props (changePoints handle a b)
    | _, _ => changedKind handle was now

def compareEntity (was now : Geometry) : Draft :=
  if was.opaqueType.isSome ∨ now.opaqueType.isSome then compareOpaque handle was now
  else comparePlan t handle was now

def removeOrCompare (after : Dict String Geometry) (was : Geometry) : Draft :=
  match after.get handle with
  | some now => compareEntity t handle was now
  | none =>
    match was.opaqueType with
    | some type =>
      .refuse s!"entity {handle} is a {type} the plan cannot carry, and it was removed" type (some .opaqueKind)
    | none => .push { Mutations.empty with removed := [handle] }

def addEntity (before : Dict String Geometry) (now : Geometry) : Draft :=
  match before.get handle with
  | some _ => .empty
  | none =>
    match now with
    | .opaqueKind print =>
      let type := print.type
      .refuse s!"entity {handle} is a {type} the plan cannot carry, and it was added" type (some .opaqueKind)
    | .mleader _ _ false =>
      .refuse s!"entity {handle} is a MLEADER the plan cannot carry, and it was added" "MLEADER" (some .opaqueKind)
    | .polyline _ _ _ _ true _ =>
      .refuse s!"polyline {handle} has curved segments the plan cannot carry" "LWPOLYLINE" (some .curvedGeometry)
    | now => .push { Mutations.empty with added := [addedRecord t handle now] }

def entityDraft (before after : Dict String Geometry) : Draft :=
  .gather (before.rows.map fun p => removeOrCompare t p.1 after p.2) ++
    .gather (after.rows.map fun p => addEntity t p.1 before p.2)

inductive Signature
  | digest (name digest : String)
  | record (block : BlockDef)
  deriving DecidableEq

def signature (block : BlockDef) : Signature :=
  match block.digest with
  | some digest => .digest block.name digest
  | none => .record block

def definitions (blocks : List BlockDef) : Dict String Signature :=
  blocks.foldl (fun d block => d.set block.name (signature block)) .empty

def compareBlock (committed current : List BlockDef) (name : String) : Option BlockDef × Draft :=
  let was := (definitions committed).get name
  let now := (definitions current).get name
  if was = now then (none, .empty)
  else
    match was, now with
    | none, _ => (current.find? fun block => block.name = name, .empty)
    | _, none =>
      (none, .refuse s!"block {name} is a definition the plan cannot carry, and it was removed" none none)
    | _, _ =>
      (none, .refuse s!"block {name} is a definition the plan cannot carry, and it was changed" none none)

def compareBlocks (committed current : List BlockDef) : List (Option BlockDef × Draft) :=
  ((definitions committed).rows.map fst ++ (definitions current).rows.map fst).eraseDups.map
    (compareBlock committed current)

def pendingBlocks (committed current : List BlockDef) : List BlockDef :=
  (compareBlocks committed current).filterMap fst

def blockRefusals (committed current : List BlockDef) : Draft :=
  .gather ((compareBlocks committed current).map snd)

def groupMap (groups : List Group) : Dict String Group :=
  groups.foldl (fun d group => d.set (t.upper group.name) group) .empty

def memberHandles (group : Group) : List String := ((group.memberIds.getD []).map hexHandle).eraseDups

variable (before after : Dict String Geometry)

def livingMembers (group : Group) : List String :=
  (memberHandles group).filter fun id => (before.get id).isNone || (after.get id).isSome

def survivingMembers (group : Group) : List String := (memberHandles group).filter fun id => (after.get id).isSome

def sameMembers (a b : List String) : Bool := a.length = b.length && a.all fun id => id ∈ b

def keptGroup (newGroups : Dict String Group) (name : String) (group : Group) : Bool :=
  match newGroups.get name with
  | none => false
  | some now => sameMembers (survivingMembers after group) (livingMembers before after now)

def removedGroups (oldGroups newGroups : Dict String Group) : List String :=
  (oldGroups.rows.filter fun p => !keptGroup before after newGroups p.1 p.2).map fst

def newMembers (oldGroups newGroups : Dict String Group) (name : String) (group : Group) : Option (List String) :=
  if (oldGroups.get name).isNone ∨ name ∈ removedGroups before after oldGroups newGroups then
    some (livingMembers before after group)
  else none

def addGroup (oldGroups newGroups : Dict String Group) (p : String × Group) :
    Option (String × List String) × Draft :=
  match newMembers before after oldGroups newGroups p.1 p.2 with
  | none => (none, .empty)
  | some members =>
    if members.length < 2 then
      let name := p.1
      (none, .refuse s!"group {name} needs at least two members to save; ungroup it or add a member"
        none (some .groupSingleton))
    else (some (p.1, members), .empty)

def addGroups (oldGroups newGroups : Dict String Group) : List (Option (String × List String) × Draft) :=
  newGroups.rows.map (addGroup before after oldGroups newGroups)

def floatText (value : ℚ) : Option String :=
  if value ≠ 0 ∧ (|value| < 1 / 10000 ∨ 10 ^ 16 ≤ |value|) then none
  else if value.den = 1 then some (toString value.num ++ ".0")
  else some (t.spell value)

def pointText (p : Point) : Option String := do
  return (← floatText t p.x) ++ "," ++ (← floatText t p.y) ++ "," ++ (← floatText t p.z)

def additionSortPrefix (record : AddedRecord) : Option String :=
  let handle := "\"handle\":" ++ t.quote record.handle
  match record.shape with
  | .dimension .. => none
  | .circle c _ => do return "\x7b\"c\":[" ++ (← pointText t c) ++ "]," ++ handle
  | .arc c _ _ endDeg => do
    return "\x7b\"c\":[" ++ (← pointText t c) ++ "],\"end_deg\":" ++ (← floatText t endDeg) ++ "," ++ handle
  | .polyline closed _ => some ("\x7b\"closed\":" ++ toString closed ++ "," ++ handle)
  | _ => some ("\x7b" ++ handle)

def sortBy {α : Type} (key : α → String) (l : List α) : List α := l.mergeSort fun a b => t.le (key a) (key b)

def sortAdded (ordinals blocks : Bool) (added : List AddedRecord) : List AddedRecord × Draft :=
  let added := sortBy t AddedRecord.handle added
  if ordinals && 1 < added.length then
    if added.all fun record => (additionSortPrefix t record).isSome then
      (sortBy t (fun record => (additionSortPrefix t record).getD "") added, .empty)
    else
      (added, .refuse
        ("same-plan ordinals cannot be established; " ++
          "save the new entities before grouping or creating a block")
        none (if blocks then some .blockDefUnmatched else none))
  else (added, .empty)

def ordinal (added : List AddedRecord) (handle : String) : Option ℕ :=
  added.findIdx? fun record => record.handle = handle

structure BlockWork where
  (consumed members : List String)
  inline : List InlineChild
  order : List ChildRef
  draft : Draft

def unmatched (name : String) : Draft :=
  .refuse (s!"Block {name} cannot be saved: every child must be an eligible inline child " ++
      "or a distinct removed committed entity, with its replacement INSERT.")
    none (some .blockDefUnmatched)

variable (removed : List String) (name : String)

def Geometry.curved : Geometry → Bool
  | .polyline _ _ _ _ curved _ => curved
  | _ => false

def childHandle (child : Entity) : String := hexHandle ((child.handle.or child.id).getD "")

def childKind (child : Entity) : Bool :=
  child.type = "LINE" || child.type = "LWPOLYLINE" || child.type = "CIRCLE" || child.type = "ARC"

def widened (child : Entity) : Bool :=
  child.constantWidth.getD 0 ≠ 0 || (child.startWidths.getD []).any (· ≠ 0) ||
    (child.endWidths.getD []).any (· ≠ 0)

def inlineChild (work : BlockWork) (child : Entity) (handle : String) (now : Geometry) :
    Except BlockWork BlockWork :=
  if widened child ∨ now.trueColor.isSome then
    .error { work with draft := work.draft ++ unmatched name }
  else
    let record := addedRecord t handle now
    .ok { work with
      inline := work.inline ++ [⟨record.layer, record.shape, record.style⟩]
      order := work.order ++ [.inline work.inline.length] }

def sameProps (was now : Props) : Bool :=
  was.aci = now.aci && was.trueColor = now.trueColor && t.lower was.linetype = t.lower now.linetype &&
    was.lineweight = now.lineweight

def memberSetters (handle : String) (was now : Geometry) : Option (Props × Props × Draft) :=
  match was, now with
  | .circle l c r props, .circle l' c' r' props' =>
    some (props, props', changeLayer handle l l' ++ changeCircle handle c c' r r')
  | .arc l c r s e props, .arc l' c' r' s' e' props' =>
    some (props, props', changeLayer handle l l' ++ changeArc handle c c' r r' s s' e e')
  | was, now =>
    match linearOf was, linearOf now with
    | some a, some b =>
      some (a.props, b.props, changeLayer handle a.layer b.layer ++ changePoints handle a b)
    | _, _ => none

def memberChild (work : BlockWork) (handle : String) (was now : Geometry) : Except BlockWork BlockWork :=
  if handle ∉ removed ∨ was.curved then .error { work with draft := work.draft ++ unmatched name }
  else
    match memberSetters handle was now with
    | none => .error { work with draft := work.draft ++ unmatched name }
    | some (wasProps, nowProps, setters) =>
      if !sameProps t wasProps nowProps then
        .error { work with
          draft := work.draft ++ .refuse
            "block members keep their colour, linetype and lineweight; change them after the block exists"
            none (some .blockDefUnmatched) }
      else
        .ok { work with
          draft := work.draft ++ setters
          members := work.members ++ [handle]
          order := work.order ++ [.member handle] }

def blockChild (work : BlockWork) (child : Entity) : Except BlockWork BlockWork :=
  let handle := childHandle child
  match planGeometry child with
  | none => .error { work with draft := work.draft ++ unmatched name }
  | some now =>
    if handle = "" ∨ handle ∈ work.consumed ∨ !childKind child ∨ now.curved then
      .error { work with draft := work.draft ++ unmatched name }
    else
      let work := { work with consumed := handle :: work.consumed }
      match before.get handle with
      | none => inlineChild t name work child handle now
      | some was => memberChild t removed name work handle was now

def blockChildren : List Entity → BlockWork → BlockWork
  | [], work => work
  | child :: rest, work =>
    match blockChild t before removed name work child with
    | .ok work => blockChildren rest work
    | .error work => work

def blockBase (block : BlockDef) : Option Point :=
  match block.base with
  | some [some x, some y, some z] => if z = 0 then some ⟨x, y, z⟩ else none
  | _ => none

def replacements (added : List AddedRecord) (name : String) : List AddedRecord :=
  added.filter fun record =>
    match record.shape with
    | .insert n _ _ _ => n = name
    | _ => false

def replaces (base : Point) (record : AddedRecord) : Bool :=
  match record.shape with
  | .insert _ pt rot scale =>
    record.layer = "0" && samePoint pt base && rot = 0 && samePoint scale ⟨1, 1, 1⟩
  | _ => false

def setters (m : Mutations) : ℕ := m.setLayer.length + m.setPoints.length + m.setCircle.length + m.setArc.length

def defineBlock (before : Dict String Geometry) (removed : List String) (added : List AddedRecord)
    (consumed : List String) (block : BlockDef) : List String × Draft :=
  match blockBase block, block.children with
  | some base, some children =>
    if children = [] ∨ 60 < children.length ∨ block.complete = some false ∨ block.baseUnknown then
      (consumed, unmatched block.name)
    else
      let work := blockChildren t before removed block.name children ⟨consumed, [], [], [], .empty⟩
      match replacements added block.name with
      | [replacement] =>
        if work.order.length ≠ children.length ∨ !replaces base replacement then
          (work.consumed, work.draft ++ unmatched block.name)
        else
          let definition : BlockDefinition :=
            ⟨block.name, base, sortBy t id work.members,
              (ordinal added replacement.handle).getD 0,
              if work.inline ≠ [] ∨ 0 < setters work.draft.ops then some (work.inline, work.order)
              else none⟩
          (work.consumed, work.draft ++ .push { Mutations.empty with blockDefs := [definition] })
      | _ => (work.consumed, work.draft ++ unmatched block.name)
  | _, _ => (consumed, unmatched block.name)

def defineBlocks (before : Dict String Geometry) (removed : List String) (added : List AddedRecord) :
    List BlockDef → List String → Draft
  | [], _ => .empty
  | block :: rest, consumed =>
    let defined := defineBlock t before removed added consumed block
    defined.2 ++ defineBlocks before removed added rest defined.1

def groupMember (before : Dict String Geometry) (added : List AddedRecord) (handle : String) :
    Option GroupMember :=
  if (before.get handle).isSome then some (.handle handle)
  else (ordinal added handle).map .add

def pushGroup (before : Dict String Geometry) (added : List AddedRecord) (group : String × List String) : Draft :=
  match group.2.mapM (groupMember before added) with
  | some members => .push { Mutations.empty with addedGroups := [⟨group.1, members⟩] }
  | none =>
    let name := group.1
    .refuse s!"group {name} has a member the plan cannot add" none none

def maxPlanOperations : ℕ := 5000

def Mutations.sorted (m : Mutations) : Mutations where
  blockDefs := sortBy t BlockDefinition.name m.blockDefs
  added := m.added
  addedGroups := sortBy t AddedGroup.name m.addedGroups
  removedGroups := sortBy t id m.removedGroups
  removed := sortBy t id m.removed
  setLayer := sortBy t fst m.setLayer
  setPoints := sortBy t SetPoints.handle m.setPoints
  setCircle := sortBy t fst m.setCircle
  setArc := sortBy t SetArc.handle m.setArc
  setColor := sortBy t fst m.setColor
  setLinetype := sortBy t fst m.setLinetype
  setLineweight := sortBy t fst m.setLineweight

def finish (draft : Draft) (added : List AddedRecord) : Except Refusal Mutations :=
  let ops := { draft.ops with added }
  let count := ops.count
  let tooMany : Option Refusal :=
    if maxPlanOperations < count then
      some ⟨count, s!"this edit changes {count} entities, over the {maxPlanOperations} a plan can carry", none,
        none⟩
    else none
  match draft.hard.or (draft.soft.or tooMany) with
  | some refusal => .error refusal
  | none => .ok (ops.sorted t)

def diffPlan (committed current : Projection) : Except Refusal Mutations :=
  let before := indexByHandle committed.entities
  let after := indexByHandle current.entities
  let pending := pendingBlocks committed.blocks current.blocks
  let entities := entityDraft t before after
  let oldGroups := groupMap t committed.groups
  let newGroups := groupMap t current.groups
  let gone := removedGroups before after oldGroups newGroups
  let grown := addGroups before after oldGroups newGroups
  let groups := grown.filterMap fst
  let added := sortAdded t (groups ≠ [] || gone ≠ [] || pending ≠ []) (pending ≠ []) entities.ops.added
  finish t
    (blockRefusals committed.blocks current.blocks ++ entities ++
      .push { Mutations.empty with removedGroups := gone } ++ .gather (grown.map snd) ++ added.2 ++
      defineBlocks t before entities.ops.removed added.1 pending [] ++
      .gather (groups.map (pushGroup before added.1)))
    added.1

end LeafWeb.CadEdit
