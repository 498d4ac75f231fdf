import LeafWeb.Mutation.PlanText

/-! `check_plan` of the entity scope and `mutation_scope`: a plan that passes stays within one entity. -/

namespace LeafWeb.Mutation

open Lib List Line

structure ScopeBinding where
  allowedHandles : List String
  single : allowedHandles.length = 1

def ScopeBinding.allowed (b : ScopeBinding) : String := b.allowedHandles.get ⟨0, by rw [b.single]; decide⟩

structure ContainmentRefusal where
  (reasonCode message : String)
  deriving DecidableEq

def least : List String → String
  | [] => ""
  | name :: names => names.foldl min name

def scopeName (s : String) : Bool :=
  match s.toList with
  | [] => false
  | c :: cs => c.isAlphanum && cs.length ≤ 127 &&
    cs.all fun c => c.isAlphanum || c ∈ ['.', '_', ':', '@', '~', '+', '-']

def outOfScope (handles : List String) : ContainmentRefusal where
  reasonCode := "ENTITY_SCOPE_OUT_OF_SCOPE"
  message :=
    let name := if scopeName (least handles) then least handles else "another entity"
    s!"This change also affects {name}. Nothing was published."

def labels : List (String × String) :=
  [("groups", "groups"), ("blocks", "block definitions"), ("blockdefs", "block definitions"),
    ("block_defs", "block definitions"), ("layers", "layers"), ("mlstyles", "multileader styles"),
    ("dimstyles", "dimension styles")]

def labelKey (s : String) : Bool :=
  match s.toList with
  | [] => false
  | c :: cs => c.isAlpha && cs.length ≤ 63 && cs.all fun c => c.isAlphanum || c = '_'

def drawingWide (keys : List String) : ContainmentRefusal where
  reasonCode := "ENTITY_SCOPE_DRAWING_WIDE"
  message :=
    let key := least keys
    let label := (labels.lookup key).getD (if labelKey key then key else "other data")
    s!"This change also affects the drawing's {label}. Nothing was published."

def Canonical.changed (c : Canonical) : List String :=
  c.transforms.map Transform.handle ++ c.setLayer.map SetLayer.handle ++ c.setPoints.map SetPoints.handle ++
    c.setCircle.map SetCircle.handle ++ c.setArc.map SetArc.handle ++ c.setColor.map StyleOp.handle ++
    c.setLinetype.map StyleOp.handle ++ c.setLineweight.map StyleOp.handle

def offenders (b : ScopeBinding) (c : Canonical) : List String :=
  c.added.map (fun a => a.handle) ++ (c.removed ++ c.changed).filter fun h => h ≠ b.allowed

def checkPlan (b : ScopeBinding) (c : Canonical) : Except ContainmentRefusal Unit := do
  refuse (c.addedGroups ≠ []) (drawingWide ["groups"])
  refuse (c.removedGroups ≠ []) (drawingWide ["groups"])
  refuse (c.blockDefs ≠ []) (drawingWide ["block_defs"])
  refuse (offenders b c ≠ []) (outOfScope (offenders b c))

structure MutationScope where
  (touched removed addedLayers changedBlocks : List String)

def sortedSet (l : List String) : List String := sortOn id l.dedup

def Group.handles (g : Group) : List String :=
  g.members.filterMap fun
    | .handle h => some h
    | .add _ => none

def dissolved (c : Canonical) (intake : Option Intake) : Except String (List String) := do
  if c.removedGroups = [] then return []
  let known ← demand intake "intake is required to resolve removed_groups members"
  let rows := (known.groups.getD []).reverse
  let groups ← gather (fun _ name => demand (rows.find? fun g => foldText g.name = foldText name)
    s!"removed group {quoted name} is unavailable in intake") [] c.removedGroups
  return groups.flatMap GroupRow.members

def mutationScope (c : Canonical) (intake : Option Intake) : Except String MutationScope := do
  let grouped ← dissolved c intake
  let layers ← gather (fun _ d => demand ((c.added[d.insert]?).map fun a => a.layer)
    "list index out of range") [] c.blockDefs
  return {
    touched := sortedSet ((c.changed ++ c.addedGroups.flatMap Group.handles ++ grouped).map upperText)
    removed := sortedSet ((c.removed ++ c.blockDefs.flatMap BlockDef.members).map upperText)
    addedLayers := sortedSet (c.added.map (fun a => a.layer) ++ layers)
    changedBlocks := sortedSet (c.blockDefs.map BlockDef.name) }

variable {A : Arith} {F : Format} {b : ScopeBinding} {c : Canonical} {l : Line}

structure Confined (b : ScopeBinding) (c : Canonical) : Prop where
  addedGroups : c.addedGroups = []
  removedGroups : c.removedGroups = []
  blockDefs : c.blockDefs = []
  added : c.added = []
  removed : ∀ h ∈ c.removed, h = b.allowed
  changed : ∀ h ∈ c.changed, h = b.allowed

lemma checkPlan_eq_ok : checkPlan b c = .ok () ↔ Confined b c := by
  simp only [checkPlan, bind_eq_ok, refuse_eq_ok, exists_const]
  simp only [offenders, append_eq_nil_iff, map_eq_nil_iff, filter_eq_nil_iff, decide_eq_true_eq,
    not_not, mem_append]
  refine ⟨fun h => ?_, fun h => ?_⟩
  · obtain ⟨hg, hr, hb, ha, hn⟩ := h
    exact ⟨hg, hr, hb, ha, fun h hh => hn h (.inl hh), fun h hh => hn h (.inr hh)⟩
  · exact ⟨h.addedGroups, h.removedGroups, h.blockDefs, h.added, fun x hx => hx.elim (h.removed x) (h.changed x)⟩

def Line.refs : Line → List String
  | .relayer handle _ | .setPoints handle _ _ | .setCircle handle _ _ | .setArc handle _ _ _ _
  | .remove handle | .transform handle _ => [s!"H:{handle}"]
  | .setColor target _ | .setLinetype target _ | .setLineweight target _ => [target]
  | .addBlockDef _ _ members | .addGroup _ members => members
  | _ => []

def Tag.adds : Tag → Bool
  | .add | .addOpen | .addLine | .addCircle | .addArc | .addInsert | .addDimLinear | .addDimAligned
  | .addMleader | .addGroup | .addBlockDef | .blockChild => true
  | _ => false

lemma Confined.line (h : Confined b c) (hl : Arises A F c l) :
    (∀ r ∈ l.refs, r = s!"H:{b.allowed}") ∧ l.tag.adds = false ∧ l.tag ≠ .removeGroup := by
  have hc := h.changed
  simp only [Canonical.changed, mem_append, or_imp, forall_and, forall_mem_map] at hc
  obtain ⟨⟨⟨⟨⟨⟨⟨htr, hly⟩, hp⟩, hcr⟩, harc⟩, hcl⟩, hlt⟩, hln⟩ := hc
  cases hl with
  | setLayer s hs => simp [setLayerLine, refs, tag, Tag.adds, hly s hs]
  | setPoints s _ hs hm =>
    obtain ⟨_, rfl⟩ := of_setPointsLine hm
    simp [refs, tag, Tag.adds, hp s hs]
  | setCircle s hs => simp [setCircleLine, refs, tag, Tag.adds, hcr s hs]
  | setArc s hs => simp [setArcLine, refs, tag, Tag.adds, harc s hs]
  | remove x hx => simp [refs, tag, Tag.adds, h.removed x hx]
  | transform t existing _ ht hm =>
    obtain ⟨_, rfl⟩ := of_transformLine hm
    simp [refs, tag, Tag.adds, htr t ht]
  | color op hop => simp [refs, tag, Tag.adds, hcl op hop]
  | linetype op hop => simp [refs, tag, Tag.adds, hlt op hop]
  | lineweight op hop => simp [refs, tag, Tag.adds, hln op hop]
  | blockChild _ _ _ _ hb => rw [h.blockDefs] at hb; cases hb
  | blockDef _ _ hb => rw [h.blockDefs] at hb; cases hb
  | removeGroup _ hn => rw [h.removedGroups] at hn; cases hn
  | added _ _ ha => rw [h.added] at ha; cases ha
  | addedColor _ _ _ ha => rw [h.added] at ha; cases ha
  | addedLinetype _ _ _ ha => rw [h.added] at ha; cases ha
  | addedLineweight _ _ _ ha => rw [h.added] at ha; cases ha
  | group _ hg => rw [h.addedGroups] at hg; cases hg

@[simp] lemma sortedSet_nil : sortedSet [] = [] := sortOn_nil

lemma mem_sortedSet {x : String} {l : List String} : x ∈ sortedSet l ↔ x ∈ l := by
  rw [sortedSet, mem_sortOn, mem_dedup]

lemma Confined.scope (h : Confined b c) (known : Option Intake) :
    mutationScope c known =
      .ok ⟨sortedSet (c.changed.map upperText), sortedSet (c.removed.map upperText), [], []⟩ := by
  have hg : dissolved c known = .ok [] := by
    rw [dissolved, h.removedGroups, if_pos rfl]
    rfl
  simp only [mutationScope, bind_eq_ok, hg, h.blockDefs, h.addedGroups, h.added]
  exact ⟨[], rfl, [], rfl, by simp⟩

theorem checked_plan_confined {intake : Intake} {flags : Flags} {raw : Raw}
    (hc : validateMutations A intake flags raw = .ok c) (h : checkPlan b c = .ok ()) :
    (∀ F sha baseIntake contract text, emitPlan A F c sha baseIntake contract = .ok text →
      ∃ header digest ops, readPlan text = some (header, digest, ops) ∧
        ∀ l ∈ ops, (∀ r ∈ l.refs, r = s!"H:{b.allowed}") ∧ l.tag.adds = false ∧ l.tag ≠ .removeGroup) ∧
    ∀ known, ∃ scope, mutationScope c known = .ok scope ∧
      (∀ x ∈ scope.touched, x = upperText b.allowed) ∧ (∀ x ∈ scope.removed, x = upperText b.allowed) ∧
      scope.addedLayers = [] ∧ scope.changedBlocks = [] := by
  have hcn := checkPlan_eq_ok.mp h
  refine ⟨?_, ?_⟩
  · intro F sha baseIntake contract text ht
    obtain ⟨ops, ho, -, -, hr⟩ := emitted_lines hc ht
    exact ⟨_, _, ops, hr, fun l hl => hcn.line (arises_planLines ho hl)⟩
  intro known
  refine ⟨_, hcn.scope known, ?_, ?_, rfl, rfl⟩
  · intro x hx
    obtain ⟨y, hy, rfl⟩ := mem_map.mp (mem_sortedSet.mp hx)
    rw [hcn.changed y hy]
  · intro x hx
    obtain ⟨y, hy, rfl⟩ := mem_map.mp (mem_sortedSet.mp hx)
    rw [hcn.removed y hy]

def Entity.circle (handle : String) : Entity :=
  { Entity.blank with
    handle := some handle, layer := some "0", kind := some "CIRCLE", c := some [0, 0, 0], r := some 1 }

def Intake.circles (handles : List String) : Intake :=
  { Intake.blank with arrays := fun
      | .circles => some (handles.map Entity.circle)
      | _ => none }

def relayered (handle layer : String) : Raw := { Raw.empty with setLayer := [⟨handle, layer⟩] }

def relayeredCanonical (handle layer : String) : Canonical :=
  ⟨[], [], [], [], [], [], [], [], [], [], [⟨handle, layer⟩], [], [], []⟩

def boundTo (handle : String) : ScopeBinding := ⟨[handle], rfl⟩

theorem relayered_plan_confined :
    checkPlan (boundTo "2f") (relayeredCanonical "2f" "walls") = .ok () ∧
      checkPlan (boundTo "30") (relayeredCanonical "2f" "walls") = .error
        ⟨"ENTITY_SCOPE_OUT_OF_SCOPE", "This change also affects 2f. Nothing was published."⟩ ∧
      ∀ known, ∃ scope, mutationScope (relayeredCanonical "2f" "walls") known = .ok scope ∧
        (∀ x ∈ scope.touched, x = upperText (boundTo "2f").allowed) ∧
        (∀ x ∈ scope.removed, x = upperText (boundTo "2f").allowed) ∧
        scope.addedLayers = [] ∧ scope.changedBlocks = [] := by
  have hc : validateMutations exactArith (.circles ["2f", "30"]) .default (relayered "2f" "walls") =
      .ok (relayeredCanonical "2f" "walls") := by decide +kernel
  have h : checkPlan (boundTo "2f") (relayeredCanonical "2f" "walls") = .ok () := by decide +kernel
  exact ⟨h, by decide +kernel, (checked_plan_confined hc h).2⟩

end LeafWeb.Mutation
