import LeafWeb.Lib.Delimited
import LeafWeb.Mutation.Validate

/-! `emit_plan`: a line is kept as its tag with its fields; numbers are texts already. -/

namespace LeafWeb.Mutation

open Lib List

def numeral (c : Char) : Bool := c.isDigit || c ∈ ['+', '-', '.', 'e', 'i', 'n', 'f', 'a']

structure Format where
  general : ℚ → String
  fixed : ℕ → ℚ → String
  general_numeral : ∀ q, (general q).toList.all numeral
  fixed_numeral : ∀ places q, (fixed places q).toList.all numeral

structure Plane where
  (normal elevation vertices : String)

inductive Outline
  | lwpolyline (closed : Bool) (plane : Plane)
  | line (first second : String)
  | circle (centre radius : String)
  | arc (centre radius start stop : String)

inductive Line
  | relayer (handle layer : String)
  | setPoints (handle : String) (closed : Bool) (plane : Plane)
  | setCircle (handle centre radius : String)
  | setArc (handle centre radius start stop : String)
  | blockChild (name ordinal layer : String) (outline : Outline) (aci linetype lineweight : String)
  | addBlockDef (name base : String) (members : List String)
  | removeGroup (name : String)
  | remove (handle : String)
  | transform (handle : String) (plane : Plane)
  | add (layer : String) (plane : Plane)
  | addOpen (layer : String) (plane : Plane)
  | addLine (layer first second : String)
  | addCircle (layer centre radius : String)
  | addArc (layer centre radius start stop : String)
  | addInsert (layer name point rot scale : String)
  | addDimLinear (layer style def1 def2 dimline rotation : String)
  | addDimAligned (layer style def1 def2 dimline : String)
  | addMleader (layer style first second text : String)
  | setColor (target value : String)
  | setLinetype (target value : String)
  | setLineweight (target value : String)
  | addGroup (name : String) (members : List String)

def flag (closed : Bool) : String := if closed then "1" else "0"

def Plane.fields (p : Plane) : List String := [p.normal, p.elevation, p.vertices]

def Outline.kind : Outline → String
  | .lwpolyline .. => "LWPOLYLINE"
  | .line .. => "LINE"
  | .circle .. => "CIRCLE"
  | .arc .. => "ARC"

def Outline.fields : Outline → List String
  | .lwpolyline closed plane => flag closed :: plane.fields
  | .line first second => [first, second]
  | .circle centre radius => [centre, radius]
  | .arc centre radius start stop => [centre, radius, start, stop]

inductive Tag
  | relayer
  | setPoints
  | setCircle
  | setArc
  | blockChild
  | addBlockDef
  | removeGroup
  | remove
  | transform
  | add
  | addOpen
  | addLine
  | addCircle
  | addArc
  | addInsert
  | addDimLinear
  | addDimAligned
  | addMleader
  | setColor
  | setLinetype
  | setLineweight
  | addGroup
  deriving DecidableEq

def Tag.text : Tag → String
  | .relayer => "RELAYER"
  | .setPoints => "SETPOINTS"
  | .setCircle => "SETCIRCLE"
  | .setArc => "SETARC"
  | .blockChild => "BLOCKCHILD"
  | .addBlockDef => "ADDBLOCKDEF"
  | .removeGroup => "REMOVEGROUP"
  | .remove => "REMOVE"
  | .transform => "TRANSFORM"
  | .add => "ADD"
  | .addOpen => "ADDOPEN"
  | .addLine => "ADDLINE"
  | .addCircle => "ADDCIRCLE"
  | .addArc => "ADDARC"
  | .addInsert => "ADDINSERT"
  | .addDimLinear => "ADDDIMLINEAR"
  | .addDimAligned => "ADDDIMALIGNED"
  | .addMleader => "ADDMLEADER"
  | .setColor => "SETCOLOR"
  | .setLinetype => "SETLINETYPE"
  | .setLineweight => "SETLINEWEIGHT"
  | .addGroup => "ADDGROUP"

def Line.tag : Line → Tag
  | .relayer .. => .relayer
  | .setPoints .. => .setPoints
  | .setCircle .. => .setCircle
  | .setArc .. => .setArc
  | .blockChild .. => .blockChild
  | .addBlockDef .. => .addBlockDef
  | .removeGroup .. => .removeGroup
  | .remove .. => .remove
  | .transform .. => .transform
  | .add .. => .add
  | .addOpen .. => .addOpen
  | .addLine .. => .addLine
  | .addCircle .. => .addCircle
  | .addArc .. => .addArc
  | .addInsert .. => .addInsert
  | .addDimLinear .. => .addDimLinear
  | .addDimAligned .. => .addDimAligned
  | .addMleader .. => .addMleader
  | .setColor .. => .setColor
  | .setLinetype .. => .setLinetype
  | .setLineweight .. => .setLineweight
  | .addGroup .. => .addGroup

def Line.args : Line → List String
  | .relayer handle layer => [handle, layer]
  | .setPoints handle closed plane => handle :: flag closed :: plane.fields
  | .setCircle handle centre radius => [handle, centre, radius]
  | .setArc handle centre radius start stop => [handle, centre, radius, start, stop]
  | .blockChild name ordinal layer outline aci linetype lineweight =>
    [name, ordinal, outline.kind, layer] ++ outline.fields ++ [aci, linetype, lineweight]
  | .addBlockDef name base members => [name, base, joined ';' members]
  | .removeGroup name => [name]
  | .remove handle => [handle]
  | .transform handle plane => handle :: plane.fields
  | .add layer plane | .addOpen layer plane => layer :: plane.fields
  | .addLine layer first second => [layer, first, second]
  | .addCircle layer centre radius => [layer, centre, radius]
  | .addArc layer centre radius start stop => [layer, centre, radius, start, stop]
  | .addInsert layer name point rot scale => [layer, name, point, rot, scale]
  | .addDimLinear layer style def1 def2 dimline rotation => [layer, style, def1, def2, dimline, rotation]
  | .addDimAligned layer style def1 def2 dimline => [layer, style, def1, def2, dimline]
  | .addMleader layer style first second text => [layer, style, first, second, text]
  | .setColor target value | .setLinetype target value | .setLineweight target value => [target, value]
  | .addGroup name members => [name, joined ';' members]

def Line.fields (l : Line) : List String := l.tag.text :: l.args

def Line.text (l : Line) : String := joined '|' l.fields

section

variable (F : Format)

def fmt (value : ℚ) : String := F.general (if |value| < 5 / 10 ^ 13 then 0 else value)

def fmt3 (p : Pt) : String := joined ',' (p.raw.map (fmt F))

def fixed3 (places : ℕ) (p : Pt) : String := joined ',' (p.raw.map (F.fixed places))

def Lowered.plane (l : Lowered) : Plane where
  normal := fmt3 F l.normal
  elevation := fmt F l.elevation
  vertices := joined ';' (l.points.map fun p => joined ',' [fmt F p.1, fmt F p.2])

end

section

variable (A : Arith) (F : Format)

def setLayerLine (s : SetLayer) : Line := .relayer s.handle s.layer

def setPointsLine (s : SetPoints) : Except String Line := do
  let l ← lowered (worldToOcsAny A s.pts)
  return .setPoints s.handle s.closed (l.plane F)

def setCircleLine (s : SetCircle) : Line := .setCircle s.handle (fmt3 F s.c) (fmt F s.r)

def setArcLine (s : SetArc) : Line := .setArc s.handle (fmt3 F s.c) (fmt F s.r) (fmt F s.startDeg) (fmt F s.endDeg)

def setterLines (c : Canonical) (picked : String → Bool) : Except String (List Line) := do
  let points ← gather (fun _ => setPointsLine A F) [] (c.setPoints.filter fun s => picked s.handle)
  return (c.setLayer.filter fun s => picked s.handle).map setLayerLine ++ points ++
    (c.setCircle.filter fun s => picked s.handle).map (setCircleLine F) ++
    (c.setArc.filter fun s => picked s.handle).map (setArcLine F)

def childOutline : Shape → Except String Outline
  | .lwpolyline closed pts _ => do
    let l ← lowered (if closed then worldToOcs A pts else worldToOcsAny A pts)
    return .lwpolyline closed (l.plane F)
  | .line p q => return .line (fmt3 F p) (fmt3 F q)
  | .circle c r => return .circle (fmt3 F c) (fmt F r)
  | .arc c r s e => return .arc (fmt3 F c) (fmt F r) (fmt F s) (fmt F e)
  | _ => throw "'c'"

def blockChildLine (name : String) (ordinal : ℕ) (child : Child) : Except String Line := do
  let outline ← childOutline A F child.shape
  return .blockChild name (toString ordinal) child.layer outline (toString (child.style.color.getD 256))
    (child.style.linetype.getD "ByLayer") (toString (child.style.lineweight.getD (-1)))

def blockMembers (b : BlockDef) : Except String (List String) :=
  if b.children.getD [] ≠ [] then demand b.order "'order'" else .ok (b.members.map fun h => s!"H:{h}")

def blockLines (b : BlockDef) : Except String (List Line) := do
  let children ← gather (fun out child => blockChildLine A F b.name out.length child) [] (b.children.getD [])
  let members ← blockMembers b
  return children ++ [.addBlockDef b.name (fixed3 F 3 b.base) members]

def spotOf : List ℚ → Except String Pt
  | x :: y :: z :: _ => .ok ⟨x, y, z⟩
  | _ => .error "list index out of range"

def transformLine (existing : Index) (t : Transform) : Except String Line := do
  let handle := t.handle
  let entity ← demand (((existing.get handle).filter fun row => row.1 = .lwpolyline).map Prod.snd)
    s!"transform handle {quoted handle} is unavailable"
  let points := entity.pts.getD []
  refuse (points.length < 3) s!"transform handle {quoted handle} has invalid source geometry"
  let target ← transformedPoints A points t
  let spots ← gather (fun _ => spotOf) [] target
  let l ← lowered (worldToOcs A spots)
  return .transform handle (l.plane F)

def transformLines (c : Canonical) (baseIntake : Option Intake) : Except String (List Line) := do
  if c.transforms = [] then return []
  let base ← demand baseIntake "base_intake is required for live transforms"
  let existing ← indexIntake base
  gather (fun _ => transformLine A F existing) [] c.transforms

def addLine (a : Added) : Except String Line :=
  match a.shape with
  | .lwpolyline true pts _ => do return .add a.layer ((← lowered (worldToOcs A pts)).plane F)
  | .lwpolyline false pts _ => do return .addOpen a.layer ((← lowered (worldToOcsAny A pts)).plane F)
  | .line p q => return .addLine a.layer (fmt3 F p) (fmt3 F q)
  | .circle c r => return .addCircle a.layer (fmt3 F c) (fmt F r)
  | .arc c r s e => return .addArc a.layer (fmt3 F c) (fmt F r) (fmt F s) (fmt F e)
  | .insert name pt rot scale =>
    return .addInsert a.layer name (fixed3 F 3 pt) (F.fixed 6 rot) (fixed3 F 4 scale)
  | .linear def1 def2 dimline style _ rotation =>
    return .addDimLinear a.layer style (fixed3 F 3 def1) (fixed3 F 3 def2) (fixed3 F 3 dimline)
      (F.fixed 6 rotation)
  | .aligned def1 def2 dimline style _ =>
    return .addDimAligned a.layer style (fixed3 F 3 def1) (fixed3 F 3 def2) (fixed3 F 3 dimline)
  | .mleader style p q text => return .addMleader a.layer style (fixed3 F 3 p) (fixed3 F 3 q) text

def styleLines {V : Type} (make : String → String → Line) (show' : V → String) (ops : List (StyleOp V))
    (added : List (Option V)) : List Line :=
  (sortByValue ops).map (fun op => make s!"H:{op.handle}" (show' op.value)) ++
    (added.zipIdx.filterMap fun x => x.1.map fun v => make s!"A:{x.2}" (show' v))

def Member.text : Member → String
  | .handle h => s!"H:{h}"
  | .add i => s!"A:{i}"

def groupLine (g : Group) : Line := .addGroup (upperText g.name) (g.members.map Member.text)

def removeLines (c : Canonical) : List Line := c.removed.map Line.remove

def planLines (c : Canonical) (baseIntake : Option Intake) : Except String (List Line) := do
  let consumed := c.blockDefs.flatMap BlockDef.members
  let memberSetters ← setterLines A F c fun h => h ∈ consumed
  let blocks ← gather (fun _ => blockLines A F) [] c.blockDefs
  let transforms ← transformLines A F c baseIntake
  let remainingSetters ← setterLines A F c fun h => h ∉ consumed
  let added ← gather (fun _ => addLine A F) [] c.added
  return memberSetters ++ blocks.flatten ++ c.removedGroups.map (fun n => .removeGroup (upperText n)) ++
    (if c.blockDefs = [] then removeLines c else []) ++ transforms ++ remainingSetters ++ added ++
    styleLines .setColor toString c.setColor (c.added.map fun a => a.style.color) ++
    styleLines .setLinetype id c.setLinetype (c.added.map fun a => a.style.linetype) ++
    styleLines .setLineweight toString c.setLineweight (c.added.map fun a => a.style.lineweight) ++
    c.addedGroups.map groupLine ++ (if c.blockDefs = [] then [] else removeLines c)

end

def Shape.v3 : Shape → Bool
  | .insert .. | .linear .. | .aligned .. | .mleader .. => true
  | _ => false

def usesV3 (c : Canonical) : Bool :=
  c.blockDefs ≠ [] || c.addedGroups ≠ [] || (c.removedGroups.any fun n => n ≠ "") ||
    c.setColor ≠ [] || c.setLinetype ≠ [] || c.setLineweight ≠ [] ||
    (c.removedKinds.any fun x => x.2 = .dimension || x.2 = .multileader) ||
    c.added.any fun a => a.shape.v3 || a.style ≠ .plain

def isClosed : Shape → Bool
  | .lwpolyline closed _ _ => closed
  | _ => false

def usesV2 (c : Canonical) : Bool :=
  c.setLayer ≠ [] || c.setPoints ≠ [] || c.setCircle ≠ [] || c.setArc ≠ [] || c.removedKinds ≠ [] ||
    c.added.any fun a => !isClosed a.shape

def planVersion (c : Canonical) (contract : Option ℤ) : ℤ :=
  contract.getD (if usesV3 c then 3 else if usesV2 c then 2 else 1)

def isDigest (s : String) : Bool := s.length = 64 && s.toList.all fun c => c.isDigit || ('a' ≤ c && c ≤ 'f')

def planHeader (version : ℤ) (baseSha256 : String) : List String :=
  [joined '|' ["LEAF_MUTATION_PLAN", toString version], joined '|' ["BASE_SHA256", baseSha256]]

def emitPlan (A : Arith) (F : Format) (c : Canonical) (baseSha256 : String) (baseIntake : Option Intake)
    (contract : Option ℤ) : Except String String := do
  refuse (¬isDigest baseSha256) "base_sha256 must be lowercase hex"
  refuse (∃ n ∈ contract, n ≠ 2 ∧ n ≠ 3) "contract must be 2 or 3"
  let version := planVersion c contract
  refuse (usesV3 c ∧ version ≠ 3) "contract v3 is required for property operations"
  let lines ← planLines A F c baseIntake
  let text := joined '\n' (planHeader version baseSha256 ++ lines.map Line.text ++ [""])
  refuse (version ≠ 3 ∧ ¬text.toList.all fun c => c.toNat < 128) "ordinal not in range(128)"
  refuse (maxPlanBytes < text.utf8ByteSize) "mutation plan exceeds the byte bound"
  return text

variable {A : Arith} {F : Format} {l : Line} {c : Canonical} {lines : List Line} {base : Option Intake}

lemma of_setPointsLine {s : SetPoints} (h : setPointsLine A F s = .ok l) :
    ∃ lo : Lowered, l = .setPoints s.handle s.closed (lo.plane F) := by
  simp only [setPointsLine, bind_eq_ok, pure_eq_ok] at h
  obtain ⟨lo, -, rfl⟩ := h
  exact ⟨lo, rfl⟩

lemma of_transformLine {existing : Index} {t : Transform} (h : transformLine A F existing t = .ok l) :
    ∃ lo : Lowered, l = .transform t.handle (lo.plane F) := by
  simp only [transformLine, bind_eq_ok, pure_eq_ok] at h
  obtain ⟨_, _, _, _, _, _, _, _, lo, -, rfl⟩ := h
  exact ⟨lo, rfl⟩

inductive Arises (A : Arith) (F : Format) (c : Canonical) : Line → Prop
  | setLayer (s : SetLayer) (hs : s ∈ c.setLayer) : Arises A F c (setLayerLine s)
  | setPoints (s : SetPoints) (l : Line) (hs : s ∈ c.setPoints) (hl : setPointsLine A F s = .ok l) :
    Arises A F c l
  | setCircle (s : SetCircle) (hs : s ∈ c.setCircle) : Arises A F c (setCircleLine F s)
  | setArc (s : SetArc) (hs : s ∈ c.setArc) : Arises A F c (setArcLine F s)
  | blockChild (b : BlockDef) (child : Child) (n : ℕ) (l : Line) (hb : b ∈ c.blockDefs)
    (hchild : child ∈ b.children.getD []) (hl : blockChildLine A F b.name n child = .ok l) : Arises A F c l
  | blockDef (b : BlockDef) (members : List String) (hb : b ∈ c.blockDefs)
    (hmembers : blockMembers b = .ok members) :
    Arises A F c (.addBlockDef b.name (fixed3 F 3 b.base) members)
  | removeGroup (n : String) (hn : n ∈ c.removedGroups) : Arises A F c (.removeGroup (upperText n))
  | remove (h : String) (hh : h ∈ c.removed) : Arises A F c (.remove h)
  | transform (t : Transform) (existing : Index) (l : Line) (ht : t ∈ c.transforms)
    (hl : transformLine A F existing t = .ok l) : Arises A F c l
  | added (a : Added) (l : Line) (ha : a ∈ c.added) (hl : addLine A F a = .ok l) : Arises A F c l
  | color (op : StyleOp ℤ) (hop : op ∈ c.setColor) :
    Arises A F c (.setColor s!"H:{op.handle}" (toString op.value))
  | linetype (op : StyleOp String) (hop : op ∈ c.setLinetype) :
    Arises A F c (.setLinetype s!"H:{op.handle}" op.value)
  | lineweight (op : StyleOp ℤ) (hop : op ∈ c.setLineweight) :
    Arises A F c (.setLineweight s!"H:{op.handle}" (toString op.value))
  | addedColor (a : Added) (n : ℕ) (v : ℤ) (ha : a ∈ c.added) (hv : a.style.color = some v) :
    Arises A F c (.setColor s!"A:{n}" (toString v))
  | addedLinetype (a : Added) (n : ℕ) (v : String) (ha : a ∈ c.added) (hv : a.style.linetype = some v) :
    Arises A F c (.setLinetype s!"A:{n}" v)
  | addedLineweight (a : Added) (n : ℕ) (v : ℤ) (ha : a ∈ c.added) (hv : a.style.lineweight = some v) :
    Arises A F c (.setLineweight s!"A:{n}" (toString v))
  | group (g : Group) (hg : g ∈ c.addedGroups) : Arises A F c (groupLine g)

lemma arises_setterLines {picked : String → Bool} (h : setterLines A F c picked = .ok lines) (hl : l ∈ lines) :
    Arises A F c l := by
  simp only [setterLines, bind_eq_ok, pure_eq_ok] at h
  obtain ⟨points, hp, rfl⟩ := h
  simp only [mem_append, mem_map, mem_filter] at hl
  rcases hl with ((⟨s, ⟨hs, -⟩, rfl⟩ | hl) | ⟨s, ⟨hs, -⟩, rfl⟩) | ⟨s, ⟨hs, -⟩, rfl⟩
  · exact .setLayer s hs
  · obtain ⟨s, hs, _, hm⟩ := (exists_of_gather hp hl).resolve_left not_mem_nil
    exact .setPoints s l (mem_of_mem_filter hs) hm
  · exact .setCircle s hs
  · exact .setArc s hs

lemma arises_blockLines {b : BlockDef} (hb : b ∈ c.blockDefs) (h : blockLines A F b = .ok lines)
    (hl : l ∈ lines) : Arises A F c l := by
  simp only [blockLines, bind_eq_ok, pure_eq_ok] at h
  obtain ⟨children, hc, members, hm, rfl⟩ := h
  rcases mem_append.mp hl with hl | hl
  · obtain ⟨child, hch, sofar, hmd⟩ := (exists_of_gather hc hl).resolve_left not_mem_nil
    exact .blockChild b child sofar.length l hb hch hmd
  · rw [mem_singleton.mp hl]
    exact .blockDef b members hb hm

lemma arises_transformLines (h : transformLines A F c base = .ok lines) (hl : l ∈ lines) : Arises A F c l := by
  unfold transformLines at h
  split_ifs at h with hn
  · rw [← pure_eq_ok.mp h] at hl
    cases hl
  simp only [bind_eq_ok] at h
  obtain ⟨-, -, existing, -, h⟩ := h
  obtain ⟨t, ht, _, hm⟩ := (exists_of_gather h hl).resolve_left not_mem_nil
  exact .transform t existing l ht hm

lemma mem_styleLines {make : String → String → Line} {V : Type} {show' : V → String}
    {ops : List (StyleOp V)} {added : List (Option V)} (hl : l ∈ styleLines make show' ops added) :
    (∃ op ∈ ops, l = make s!"H:{op.handle}" (show' op.value)) ∨
      ∃ (n : ℕ) (v : V), some v ∈ added ∧ l = make s!"A:{n}" (show' v) := by
  unfold styleLines at hl
  simp only [mem_append, mem_map, mem_filterMap, sortByValue, mem_sortOn] at hl
  rcases hl with ⟨op, hop, rfl⟩ | ⟨⟨o, n⟩, hmem, hm⟩
  · exact Or.inl ⟨op, hop, rfl⟩
  · obtain ⟨v, rfl, rfl⟩ := Option.map_eq_some_iff.mp hm
    exact Or.inr ⟨n, v, fst_mem_of_mem_zipIdx hmem, rfl⟩

lemma arises_planLines (h : planLines A F c base = .ok lines) (hl : l ∈ lines) : Arises A F c l := by
  simp only [planLines, bind_eq_ok, pure_eq_ok] at h
  obtain ⟨members, hmb, blocks, hbl, transforms, ht, rest, hrs, added, had, rfl⟩ := h
  simp only [mem_append] at hl
  have hr : ∀ l ∈ removeLines c, Arises A F c l := by
    intro l hl
    obtain ⟨x, hx, rfl⟩ := mem_map.mp hl
    exact .remove x hx
  rcases hl with ((((((((((hl | hl) | hl) | hl) | hl) | hl) | hl) | hl) | hl) | hl) | hl) | hl
  · exact arises_setterLines hmb hl
  · obtain ⟨ls, hls, hl⟩ := mem_flatten.mp hl
    obtain ⟨b, hb, _, hm⟩ := (exists_of_gather hbl hls).resolve_left not_mem_nil
    exact arises_blockLines hb hm hl
  · obtain ⟨n, hn, rfl⟩ := mem_map.mp hl
    exact .removeGroup n hn
  · split_ifs at hl
    · exact hr l hl
    · cases hl
  · exact arises_transformLines ht hl
  · exact arises_setterLines hrs hl
  · obtain ⟨a, ha, _, hm⟩ := (exists_of_gather had hl).resolve_left not_mem_nil
    exact .added a l ha hm
  · rcases mem_styleLines hl with ⟨op, hop, rfl⟩ | ⟨n, v, hv, rfl⟩
    · exact .color op hop
    · obtain ⟨a, ha, hv⟩ := mem_map.mp hv
      exact .addedColor a n v ha hv
  · rcases mem_styleLines hl with ⟨op, hop, rfl⟩ | ⟨n, v, hv, rfl⟩
    · exact .linetype op hop
    · obtain ⟨a, ha, hv⟩ := mem_map.mp hv
      exact .addedLinetype a n v ha hv
  · rcases mem_styleLines hl with ⟨op, hop, rfl⟩ | ⟨n, v, hv, rfl⟩
    · exact .lineweight op hop
    · obtain ⟨a, ha, hv⟩ := mem_map.mp hv
      exact .addedLineweight a n v ha hv
  · obtain ⟨g, hg, rfl⟩ := mem_map.mp hl
    exact .group g hg
  · split_ifs at hl
    · cases hl
    · exact hr l hl

end LeafWeb.Mutation
