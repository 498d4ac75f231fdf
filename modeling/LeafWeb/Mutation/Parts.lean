import LeafWeb.Mutation.Additions

/-! `validate_mutations` as one statement: what holds of the lists its loops collect. -/

namespace LeafWeb.Mutation

open Lib Option

structure Parts where
  removed : List String
  transforms : List Transform
  setLayer : List SetLayer
  setPoints : List SetPoints
  setCircle : List SetCircle
  setArc : List SetArc
  placed : List Placed
  styles : List (Option String × Style)
  inserts : List Entity
  removedGroups : List String
  groups : List Group
  setColor : List (StyleOp ℤ)
  setLinetype : List (StyleOp String)
  setLineweight : List (StyleOp ℤ)

namespace Parts

def targets (p : Parts) (index : Index) (blockDefs : List BlockDef) : Targets :=
  ⟨index, p.removed, blockDefs.flatMap BlockDef.members, p.transforms.map Transform.handle⟩

def ordinals (p : Parts) (A : Arith) (raw : Raw) : Ordinals := ⟨sortAdded A p.placed, raw.added⟩

def canonical (p : Parts) (A : Arith) (index : Index) (blockDefs : List BlockDef) (raw : Raw) : Canonical where
  blockDefs := blockDefs.map fun b => { b with insert := (p.ordinals A raw).of b.insert }
  addedGroups := sortOn Group.name p.groups
  removedGroups := sortOn id p.removedGroups
  setColor := sortByValue p.setColor
  setLinetype := sortByValue p.setLinetype
  setLineweight := sortByValue p.setLineweight
  added := (sortAdded A p.placed).map (styled p.styles)
  removed := sortOn id p.removed
  removedKinds := sortOn Prod.fst (removedKinds index p.removed)
  transforms := sortOn Transform.handle p.transforms
  setLayer := sortOn SetLayer.handle p.setLayer
  setPoints := sortOn SetPoints.handle p.setPoints
  setCircle := sortOn SetCircle.handle p.setCircle
  setArc := sortOn SetArc.handle p.setArc

def edited (p : Parts) : List String := p.setPoints.map SetPoints.handle ++ p.setCircle.map SetCircle.handle

end Parts

def childPoints (blockDefs : List BlockDef) : ℕ := ((childrenOf blockDefs).map fun c => c.shape.points).sum

def setPointsTotal (ops : List SetPoints) : ℕ := (ops.map fun s => s.pts.length).sum

def placedTotal (placed : List Placed) : ℕ := (placed.map fun p => p.shape.points).sum

def Collected {A B K : Type} (base : A → B → Prop) (key : B → K) (as : List A) (bs : List B) : Prop :=
  List.Forall₂ base as bs ∧ (bs.map key).Nodup

variable {B C K : Type} {as : List B} {bs : List C} {base : B → C → Prop} {key : C → K}

lemma Collected.length_eq (h : Collected base key as bs) : as.length = bs.length := h.1.length_eq

lemma Collected.exists_base {b : C} (h : Collected base key as bs) (hb : b ∈ bs) : ∃ a ∈ as, base a b := by
  obtain ⟨i, hi, rfl⟩ := List.mem_iff_getElem.mp hb
  have hi' : i < as.length := by rwa [h.length_eq]
  exact ⟨_, List.get_mem as ⟨i, hi'⟩, h.1.get hi' hi⟩

variable {flags : Flags} {raw removed edited names removedGroups : List String} {t : Targets} {index : Index}
  {A : Arith} {total : ℕ} {intake : Intake}

lemma gather_remove : gather (removeStep index) [] raw = .ok removed ↔
    Collected (Removes index) id raw removed := by
  apply gather_keyed
  intro out raw h
  simp only [removeStep, bind_eq_ok, existingHandle_eq_ok, refuse_eq_ok, exists_const, pure_eq_ok, List.map_id]
  constructor
  · rintro ⟨_, ⟨rfl, hs⟩, ho, hi, rfl⟩
    exact ⟨⟨rfl, hs, hi⟩, ho⟩
  · rintro ⟨⟨rfl, hs, hi⟩, ho⟩
    exact ⟨raw, ⟨rfl, hs⟩, ho, hi, rfl⟩

lemma gather_transform {ops : List Transform} {raw : List RawTransform} :
    gather (transformStep flags index removed) [] raw = .ok ops ↔
      Collected (Transforms flags index removed) Transform.handle raw ops := by
  apply gather_keyed
  intro out raw op
  simp only [transformStep, bind_eq_ok, existingHandle_eq_ok, demand_eq_ok, refuse_eq_ok,
    exists_const, number_eq_ok, pure_eq_ok, some.injEq, not_not]
  constructor
  · rintro ⟨_, ⟨rfl, hs⟩, _, hk, rfl, ho, hkp, -, dx, ⟨hdx, hdx'⟩, dy, ⟨hdy, hdy'⟩, r, ⟨hr, hr'⟩, hm, rfl⟩
    exact ⟨⟨rfl, hs, hk, hkp, hdx, hdx', hdy, hdy', hr, hr', hm⟩, ho⟩
  rintro ⟨h, ho⟩
  refine ⟨_, ⟨h.handle, h.safe⟩, _, h.kind, rfl, ho, h.kept, ?_, _, ⟨h.dx, h.dx_le⟩, _,
    ⟨h.dy, h.dy_le⟩, _, ⟨h.rotation, h.rotation_le⟩, h.moves, rfl⟩
  simp [h.dx, h.dy]

lemma gather_setLayer {raw ops : List SetLayer} :
    gather (setLayerStep flags t) [] raw = .ok ops ↔ Collected (SetsLayer flags t) SetLayer.handle raw ops := by
  apply gather_keyed
  intro out raw s
  simp only [setLayerStep, bind_eq_ok, Prod.exists, target_eq_ok, refuse_eq_ok, exists_const,
    layerName_eq_ok, pure_eq_ok, some.injEq]
  constructor
  · rintro ⟨_, e, ⟨rfl, he⟩, ho, _, ⟨rfl, hl⟩, hn, rfl⟩
    exact ⟨⟨rfl, hl, e, he, hn⟩, ho⟩
  · rintro ⟨⟨rfl, hl, e, he, hn⟩, ho⟩
    exact ⟨_, e, ⟨rfl, he⟩, ho, _, ⟨rfl, hl⟩, hn, rfl⟩

lemma gather_setPoints {ops : List SetPoints} (ht : total ≤ maxPoints) {raw : List RawSetPoints} :
    gather (setPointsStep A flags t total) [] raw = .ok ops ↔
      Collected (fun r s => ∃ e, SetsPoints A flags t r s e) SetPoints.handle raw ops ∧
        total + setPointsTotal ops ≤ maxPoints := by
  rw [Collected, and_assoc]
  refine gather_bounded ?_ ht
  intro out a s
  rw [setPointsStep_eq_ok]
  constructor
  · rintro ⟨h, ho, hb⟩
    exact ⟨h, ho, .inr hb⟩
  rintro ⟨⟨e, h⟩, ho, hb⟩
  have hl := (length_of_points h.pts).1
  refine ⟨⟨e, h⟩, ho, hb.resolve_left ?_⟩
  split at hl <;> omega

lemma gather_setCircle {ops : List SetCircle} {raw : List RawSetCircle} :
    gather (setCircleStep flags t edited) [] raw = .ok ops ↔
      Collected (fun r s => (∃ e, SetsCircle flags t r s e) ∧ s.handle ∉ edited) SetCircle.handle raw
        ops := by
  apply gather_keyed
  intro out raw s
  simp only [setCircleStep, bind_eq_ok, Prod.exists, target_eq_ok, refuse_eq_ok, exists_const,
    number_eq_ok, pure_eq_ok, not_or, not_not, some.injEq]
  constructor
  · rintro ⟨_, e, ⟨rfl, he⟩, ⟨hed, ho⟩, hup, c, hc, r, ⟨rfl, hr⟩, hp, hm, rfl⟩
    exact ⟨⟨⟨e, rfl, he, hup, (point3_field _ _).mp hc, rfl, hr, hp, hm⟩, hed⟩, ho⟩
  rintro ⟨⟨⟨e, h⟩, hed⟩, ho⟩
  obtain ⟨h, c, r⟩ := s
  obtain ⟨rfl, he, hup, hc, rfl, hr, hp, hm⟩ := h
  exact ⟨_, e, ⟨rfl, he⟩, ⟨hed, ho⟩, hup, c, (point3_field _ _).mp hc, _, ⟨rfl, hr⟩, hp, hm, rfl⟩

lemma gather_setArc {ops : List SetArc} {raw : List RawSetArc} :
    gather (setArcStep flags t edited) [] raw = .ok ops ↔
      Collected (fun r s => (∃ e, SetsArc flags t r s e) ∧ s.handle ∉ edited) SetArc.handle raw
        ops := by
  apply gather_keyed
  intro out raw s
  simp only [setArcStep, bind_eq_ok, Prod.exists, target_eq_ok, refuse_eq_ok, exists_const,
    number_eq_ok, pure_eq_ok, not_or, not_not, some.injEq]
  constructor
  · rintro ⟨_, e, ⟨rfl, he⟩, ⟨hed, ho⟩, hup, c, hc, r, ⟨rfl, hr⟩, hp, start, ⟨rfl, hs⟩,
      stop, ⟨rfl, hst⟩, hsw, hm, rfl⟩
    exact ⟨⟨⟨e, rfl, he, hup, (point3_field _ _).mp hc, rfl, hr, hp, rfl, hs, rfl, hst, hsw, hm⟩, hed⟩, ho⟩
  rintro ⟨⟨⟨e, h⟩, hed⟩, ho⟩
  obtain ⟨h, c, r, start, stop⟩ := s
  obtain ⟨rfl, he, hup, hc, rfl, hr, hp, rfl, hs, rfl, hst, hsw, hm⟩ := h
  exact ⟨_, e, ⟨rfl, he⟩, ⟨hed, ho⟩, hup, c, (point3_field _ _).mp hc, _, ⟨rfl, hr⟩, hp, _,
    ⟨rfl, hs⟩, _, ⟨rfl, hst⟩, hsw, hm, rfl⟩

lemma gather_add {placed : List Placed} {s : Setting} (ht : total ≤ maxPoints) {raw : List RawAdded} :
    gather (addStep s total) [] raw = .ok placed ↔
      Collected (fun r p => ∃ kind layer, Adds s r p kind layer) Placed.handle raw placed ∧
        total + placedTotal placed ≤ maxPoints := by
  rw [Collected, and_assoc]
  refine gather_bounded ?_ ht
  intro out raw p
  simp only [addStep, addedHandle, bind_eq_ok, refuse_eq_ok, exists_const, safe_eq_ok, demand_eq_ok,
    layerName_eq_ok, pure_eq_ok, not_or]
  constructor
  · rintro ⟨hi, hm, he, handle, ⟨hh, hsf⟩, ⟨hf, ho⟩, kind, hk, layer, ⟨hl, hn⟩, shape, hs, rfl⟩
    rw [shapeOf_total] at hs
    have hno : s.index.get handle = none := by simpa using hf
    exact ⟨⟨kind, layer, ⟨hi, hm, he⟩, hh, hsf, hno, hk, hl, hn, rfl, hs.1⟩, ho, hs.2⟩
  · rintro ⟨⟨kind, layer, h⟩, ho, hb⟩
    refine ⟨h.fields.1, h.fields.2.1, h.fields.2.2, p.handle, ⟨h.handle, h.safe⟩, ⟨?_, ho⟩, kind,
      h.ofKind, layer, ⟨h.onLayer, h.named⟩, p.shape, shapeOf_total.mpr ⟨h.shape, hb⟩, ?_⟩
    · simp [h.fresh]
    · rw [← h.placed]

lemma gather_removeGroup :
    gather (removeGroupStep intake) [] raw = .ok names ↔
      Collected (fun r n => groupName r = .ok n ∧ foldText n ∈ headGroups intake) foldText raw
        names := by
  apply gather_keyed
  intro out raw name
  simp only [removeGroupStep, bind_eq_ok, refuse_eq_ok, exists_const, pure_eq_ok, not_not]
  constructor
  · rintro ⟨_, hn, ho, hh, rfl⟩
    exact ⟨⟨hn, hh⟩, ho⟩
  · rintro ⟨⟨hn, hh⟩, ho⟩
    exact ⟨name, hn, ho, hh, rfl⟩

lemma gather_addGroup {groups : List Group} {o : Ordinals} {raw : List RawGroup} :
    gather (addGroupStep intake removed removedGroups o) [] raw = .ok groups ↔
      Collected (Groups intake removed removedGroups o) (fun g => foldText g.name) raw groups := by
  apply gather_keyed
  intro out raw g
  simp only [addGroupStep, bind_eq_ok, refuse_eq_ok, exists_const, pure_eq_ok, not_or, gather_groupMember]
  constructor
  · rintro ⟨_, hnm, ⟨ho, hf⟩, he, _, ⟨hj, hn⟩, rfl⟩
    exact ⟨⟨hnm, hf, he, hj, hn⟩, ho⟩
  · rintro ⟨h, ho⟩
    exact ⟨_, h.named, ⟨ho, h.free⟩, h.enough, _, ⟨h.joins, h.nodup⟩, rfl⟩

lemma gather_style {inserts : List Entity} {V : Type} {rule : StyleRule V} {raw ops : List (StyleOp V)} :
    gather (styleStep flags intake t inserts rule) [] raw = .ok ops ↔
      Collected (SetsStyle flags intake t inserts rule) StyleOp.handle raw ops := by
  apply gather_keyed
  intro out raw s
  simp only [styleStep, bind_eq_ok, existingHandle_eq_ok, refuse_eq_ok, exists_const, pure_eq_ok]
  constructor
  · rintro ⟨_, ⟨rfl, hs⟩, ho, hkp, hk, hkn, v, hv, hm, rfl⟩
    exact ⟨⟨rfl, hs, hkp, hk, hkn, hv, hm⟩, ho⟩
  · rintro ⟨h, ho⟩
    exact ⟨_, ⟨h.handle, h.safe⟩, ho, h.kept, h.known, h.kind, _, h.value, h.moves, rfl⟩

structure Checks (A : Arith) (intake : Intake) (flags : Flags) (index : Index)
    (blockDefs : List BlockDef) (raw : Raw) (p : Parts) : Prop where
  nonempty : ¬(opCount blockDefs raw = 0 ∧ flags.rejectNoop)
  few : ¬maxOperations < opCount blockDefs raw
  removed : Collected (Removes index) id raw.removed p.removed
  movable : ¬(raw.transforms ≠ [] ∧ flags.allowTransforms = false)
  transforms : Collected (Transforms flags index p.removed) Transform.handle raw.transforms p.transforms
  setLayer : Collected (SetsLayer flags (p.targets index blockDefs)) SetLayer.handle raw.setLayer p.setLayer
  setPoints : Collected (fun r s => ∃ e, SetsPoints A flags (p.targets index blockDefs) r s e)
    SetPoints.handle raw.setPoints p.setPoints
  setCircle : Collected (fun r s => (∃ e, SetsCircle flags (p.targets index blockDefs) r s e) ∧
    s.handle ∉ p.setPoints.map SetPoints.handle) SetCircle.handle raw.setCircle p.setCircle
  setArc : Collected (fun r s => (∃ e, SetsArc flags (p.targets index blockDefs) r s e) ∧
    s.handle ∉ p.edited) SetArc.handle raw.setArc p.setArc
  placed : Collected (fun r q => ∃ kind layer,
    Adds ⟨A, intake, flags, index, blockDefs.map BlockDef.name⟩ r q kind layer) Placed.handle raw.added
    p.placed
  points : childPoints blockDefs + setPointsTotal p.setPoints + placedTotal p.placed ≤ maxPoints
  styles : stylesOf (knownLinetypes intake) raw.added = .ok p.styles
  inserts : propertyInserts intake index raw = .ok p.inserts
  removedGroups : Collected (fun r n => groupName r = .ok n ∧ foldText n ∈ headGroups intake) foldText
    raw.removedGroups p.removedGroups
  groups : Collected (Groups intake p.removed p.removedGroups (p.ordinals A raw))
    (fun g => foldText g.name) raw.addedGroups p.groups
  setColor : Collected (SetsStyle flags intake (p.targets index blockDefs) p.inserts colorRule)
    StyleOp.handle raw.setColor p.setColor
  setLinetype : Collected (SetsStyle flags intake (p.targets index blockDefs) p.inserts
    (linetypeRule (knownLinetypes intake))) StyleOp.handle raw.setLinetype p.setLinetype
  setLineweight : Collected (SetsStyle flags intake (p.targets index blockDefs) p.inserts
    lineweightRule) StyleOp.handle raw.setLineweight p.setLineweight
  bytes : ¬maxPlanBytes < A.bytes (p.canonical A index blockDefs raw)

lemma validateWith_eq_ok {blockDefs : List BlockDef} {c : Canonical} {raw : Raw} :
    validateWith A intake flags index blockDefs raw = .ok c ↔
      ∃ p, Checks A intake flags index blockDefs raw p ∧ p.canonical A index blockDefs raw = c := by
  simp only [validateWith, bind_eq_ok, refuse_eq_ok, exists_const, boundPoints, pure_eq_ok, not_lt]
  constructor
  · rintro ⟨hn, hf, removed, hrm, hm, transforms, htr, setLayer, hsl,
      hc, setPoints, hsp, setCircle, hsc, setArc, hse, placed, hp, styles,
      hsy, inserts, hi, removedGroups, hr, groups, hg, setColor, hsr,
      setLinetype, hst, setLineweight, hs, hb, rfl⟩
    obtain ⟨hpn, ht⟩ := (gather_setPoints hc).mp hsp
    obtain ⟨ha, hsum⟩ := (gather_add ht).mp hp
    exact ⟨⟨removed, transforms, setLayer, setPoints, setCircle, setArc, placed, styles, inserts,
      removedGroups, groups, setColor, setLinetype, setLineweight⟩,
      { nonempty := hn
        few := not_lt.mpr hf
        removed := gather_remove.mp hrm
        movable := hm
        transforms := gather_transform.mp htr
        setLayer := gather_setLayer.mp hsl
        setPoints := hpn
        setCircle := gather_setCircle.mp hsc
        setArc := gather_setArc.mp hse
        placed := ha
        points := hsum
        styles := hsy
        inserts := hi
        removedGroups := gather_removeGroup.mp hr
        groups := gather_addGroup.mp hg
        setColor := gather_style.mp hsr
        setLinetype := gather_style.mp hst
        setLineweight := gather_style.mp hs
        bytes := not_lt.mpr hb }, rfl⟩
  · rintro ⟨p, h, rfl⟩
    have hsum := h.points
    have ht : childPoints blockDefs + setPointsTotal p.setPoints ≤ maxPoints := by omega
    have hc : childPoints blockDefs ≤ maxPoints := by omega
    exact ⟨h.nonempty, not_lt.mp h.few, p.removed, gather_remove.mpr h.removed, h.movable,
      p.transforms, gather_transform.mpr h.transforms, p.setLayer, gather_setLayer.mpr h.setLayer,
      hc, p.setPoints, (gather_setPoints hc).mpr ⟨h.setPoints, ht⟩, p.setCircle,
      gather_setCircle.mpr h.setCircle, p.setArc, gather_setArc.mpr h.setArc, p.placed,
      (gather_add ht).mpr ⟨h.placed, hsum⟩, p.styles, h.styles, p.inserts, h.inserts,
      p.removedGroups, gather_removeGroup.mpr h.removedGroups, p.groups, gather_addGroup.mpr h.groups,
      p.setColor, gather_style.mpr h.setColor, p.setLinetype, gather_style.mpr h.setLinetype,
      p.setLineweight, gather_style.mpr h.setLineweight, not_lt.mp h.bytes, rfl⟩

end LeafWeb.Mutation
