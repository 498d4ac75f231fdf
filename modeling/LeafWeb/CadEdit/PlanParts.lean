import LeafWeb.CadEdit.DiffPlan

namespace LeafWeb.CadEdit

open Lib List Mutations Prod Dict

namespace Mutations

@[simp] lemma empty_append (m : Mutations) : empty.append m = m := rfl

@[simp] lemma append_empty (m : Mutations) : m.append empty = m := by
  simp [append, empty]

end Mutations

namespace Draft

def Accepted (d : Draft) : Prop := d.hard = none ∧ d.soft = none

@[simp] lemma ops_empty : empty.ops = .empty := rfl

@[simp] lemma ops_push (m : Mutations) : (push m).ops = m := rfl

@[simp] lemma ops_append (a b : Draft) : (a ++ b).ops = a.ops.append b.ops := rfl

@[simp] lemma ops_refuse (reason : String) (kind : Option String) (cause : Option Cause) :
    (refuse reason kind cause).ops = .empty := by
  unfold refuse
  split <;> rfl

@[simp] lemma accepted_empty : empty.Accepted := ⟨rfl, rfl⟩

@[simp] lemma not_accepted_refuse {cause : Option Cause} {kind : Option String} {reason : String} :
    ¬(refuse reason kind cause).Accepted := by
  unfold refuse Accepted
  split <;> simp

@[simp] lemma accepted_append {a b : Draft} : (a ++ b).Accepted ↔ a.Accepted ∧ b.Accepted := by
  have h : a ++ b = ⟨a.ops.append b.ops, a.hard.or b.hard, a.soft.or b.soft⟩ := rfl
  simp only [h, Accepted, Option.or_eq_none_iff]
  tauto

lemma accepted_foldl (l : List Draft) :
    ∀ a : Draft, (l.foldl append a).Accepted ↔ a.Accepted ∧ ∀ d ∈ l, d.Accepted := by
  induction l with
  | nil =>
    simp
  | cons d l ih =>
    intro a
    have ha : (a.append d).Accepted ↔ a.Accepted ∧ d.Accepted := accepted_append
    rw [foldl_cons, ih, ha]
    simp [and_assoc]

variable {l : List Draft}

lemma accepted_gather : (gather l).Accepted ↔ ∀ d ∈ l, d.Accepted := by
  rw [gather, accepted_foldl]
  simp

lemma ops_gather (h : ∀ d ∈ l, d.ops = .empty) : (gather l).ops = .empty := by
  have hf : ∀ (l : List Draft) (a : Draft), a.ops = .empty → (∀ d ∈ l, d.ops = .empty) →
      (l.foldl append a).ops = .empty := by
    intro l
    induction l with
    | nil =>
      intro a ha _
      exact ha
    | cons d l ih =>
      intro a ha hl
      rw [forall_mem_cons] at hl
      apply ih _ _ hl.2
      change a.ops.append d.ops = .empty
      rw [ha, hl.1, empty_append]
  exact hf l empty rfl h

variable {α : Type}

lemma pick_foldl (pick : Mutations → List α) (hap : ∀ a b, pick (a.append b) = pick a ++ pick b) (l : List Draft) :
    ∀ a : Draft, pick (l.foldl append a).ops = pick a.ops ++ l.flatMap fun d => pick d.ops := by
  induction l with
  | nil =>
    simp
  | cons d l ih =>
    intro a
    have ha : (a.append d).ops = a.ops.append d.ops := rfl
    rw [foldl_cons, ih, ha, hap, flatMap_cons, append_assoc]

lemma pick_gather (pick : Mutations → List α) (he : pick .empty = [])
    (ha : ∀ a b, pick (a.append b) = pick a ++ pick b) (l : List Draft) :
    pick (gather l).ops = l.flatMap fun d => pick d.ops := by
  rw [gather, pick_foldl pick ha, ops_empty, he, nil_append]

end Draft

/-- Of the handles in the set, those added satisfy `k`, those removed `r`, the others `s`. -/
structure Within (k r s : String → Prop) (m : Mutations) : Prop where
  added : ∀ x ∈ m.added, k x.handle
  addedGroups : m.addedGroups = []
  removedGroups : m.removedGroups = []
  removed : ∀ h ∈ m.removed, r h
  setLayer : ∀ x ∈ m.setLayer, s x.1
  setPoints : ∀ x ∈ m.setPoints, s x.handle
  setCircle : ∀ x ∈ m.setCircle, s x.1
  setArc : ∀ x ∈ m.setArc, s x.handle
  setColor : ∀ x ∈ m.setColor, s x.1
  setLinetype : ∀ x ∈ m.setLinetype, s x.1
  setLineweight : ∀ x ∈ m.setLineweight, s x.1

variable {α : Type} {l : List Draft} {a : α}

namespace Within

variable {k r s : String → Prop} {a b : Mutations}

lemma empty : Within k r s .empty := by
  constructor <;> simp [Mutations.empty]

lemma append (ha : Within k r s a) (hb : Within k r s b) : Within k r s (a.append b) where
  added := fun x hm => (mem_append.mp hm).elim (ha.added x) (hb.added x)
  addedGroups := by simp [Mutations.append, ha.addedGroups, hb.addedGroups]
  removedGroups := by simp [Mutations.append, ha.removedGroups, hb.removedGroups]
  removed := fun h hm => (mem_append.mp hm).elim (ha.removed h) (hb.removed h)
  setLayer := fun x hm => (mem_append.mp hm).elim (ha.setLayer x) (hb.setLayer x)
  setPoints := fun x hm => (mem_append.mp hm).elim (ha.setPoints x) (hb.setPoints x)
  setCircle := fun x hm => (mem_append.mp hm).elim (ha.setCircle x) (hb.setCircle x)
  setArc := fun x hm => (mem_append.mp hm).elim (ha.setArc x) (hb.setArc x)
  setColor := fun x hm => (mem_append.mp hm).elim (ha.setColor x) (hb.setColor x)
  setLinetype := fun x hm => (mem_append.mp hm).elim (ha.setLinetype x) (hb.setLinetype x)
  setLineweight := fun x hm =>
    (mem_append.mp hm).elim (ha.setLineweight x) (hb.setLineweight x)

lemma refuse (reason : String) (kind : Option String) (cause : Option Cause) :
    Within k r s (Draft.refuse reason kind cause).ops := by
  rw [Draft.ops_refuse]
  exact empty

variable {handle : String} {was now : Geometry}

section

variable (t : JsText) (hs : s handle)

include hs

lemma changeLayer (was now : String) : Within k r s (changeLayer handle was now).ops := by
  constructor <;> simp [CadEdit.changeLayer, Mutations.empty, hs]

lemma changeCircle (c c' : Point) (q q' : ℚ) : Within k r s (changeCircle handle c c' q q').ops := by
  constructor <;> simp [CadEdit.changeCircle, Mutations.empty, hs]

lemma changeArc (c c' : Point) (q q' u u' v v' : ℚ) : Within k r s (changeArc handle c c' q q' u u' v v').ops := by
  constructor <;> simp [CadEdit.changeArc, Mutations.empty, hs]

lemma changePoints (was now : Linear) : Within k r s (changePoints handle was now).ops := by
  unfold CadEdit.changePoints
  split_ifs
  · exact empty
  · exact refuse _ _ _
  · constructor <;> simp [Mutations.empty, hs]

lemma changeProps {rest : Draft} (kind : String) (was now : Props) (hr : Within k r s rest.ops) :
    Within k r s (changeProps t handle kind was now rest).ops := by
  unfold CadEdit.changeProps
  split
  · exact refuse _ _ _
  · refine append ?_ hr
    constructor <;> simp [Mutations.empty, hs]

lemma comparePlan (was now : Geometry) : Within k r s (comparePlan t handle was now).ops := by
  unfold CadEdit.comparePlan
  split
  · split_ifs
    · exact refuse _ _ _
    · exact append (changeLayer hs _ _) (changeProps t hs _ _ _ empty)
  · split_ifs
    · exact empty
    · exact refuse _ _ _
  · split_ifs
    · exact empty
    · exact refuse _ _ _
  · exact append (changeLayer hs _ _) (changeProps t hs _ _ _ (changeCircle hs _ _ _ _))
  · exact append (changeLayer hs _ _) (changeProps t hs _ _ _ (changeArc hs _ _ _ _ _ _ _ _))
  · split
    · exact append (changeLayer hs _ _) (changeProps t hs _ _ _ (changePoints hs _ _))
    · exact refuse _ _ _

lemma compareEntity (was now : Geometry) : Within k r s (compareEntity t handle was now).ops := by
  unfold CadEdit.compareEntity
  split_ifs
  · unfold compareOpaque
    split_ifs
    · exact refuse _ _ _
    · exact empty
    · exact refuse _ _ _
  · exact comparePlan t hs was now

lemma removeOrCompare (hr : r handle) (after : Dict String Geometry) (was : Geometry) :
    Within k r s (removeOrCompare t handle after was).ops := by
  unfold CadEdit.removeOrCompare
  split
  · exact compareEntity t hs _ _
  split
  · exact refuse _ _ _
  · constructor <;> simp [Mutations.empty, hr]

lemma memberSetters {p q : Props} {d : Draft}
    (h : memberSetters handle was now = some (p, q, d)) : Within k r s d.ops := by
  unfold CadEdit.memberSetters at h
  split at h
  · cases h
    exact append (changeLayer hs _ _) (changeCircle hs _ _ _ _)
  · cases h
    exact append (changeLayer hs _ _) (changeArc hs _ _ _ _ _ _ _ _)
  · split at h
    · cases h
      exact append (changeLayer hs _ _) (changePoints hs _ _)
    · cases h

end

lemma addedRecord_handle (t : JsText) (handle : String) (g : Geometry) :
    (addedRecord t handle g).handle = handle := by
  cases g <;> rfl

lemma addEntity (t : JsText) (hk : k handle) (before : Dict String Geometry)
    (now : Geometry) : Within k r s (addEntity t handle before now).ops := by
  unfold CadEdit.addEntity
  split
  · exact empty
  split
  · exact refuse _ _ _
  · exact refuse _ _ _
  · exact refuse _ _ _
  · constructor <;> simp [Mutations.empty, addedRecord_handle, hk]

section

variable (t : JsText) (before : Dict String Geometry) {removed : List String} (name : String)

abbrev Gone (removed : List String) : Mutations → Prop := Within (fun _ => False) (· ∈ removed) (· ∈ removed)

def workOf : Except BlockWork BlockWork → BlockWork
  | .ok work => work
  | .error work => work

lemma blockChild {work : BlockWork} (hw : Gone removed work.draft.ops) (child : Entity) :
    Gone removed (workOf (blockChild t before removed name work child)).draft.ops := by
  have hu : Gone removed (work.draft ++ unmatched name).ops := append hw (refuse _ _ _)
  unfold CadEdit.blockChild
  cases planGeometry child with
  | none => exact hu
  | some now =>
    dsimp only
    by_cases hc : childHandle child = "" ∨ childHandle child ∈ work.consumed ∨
        (!childKind child) = true ∨ now.curved = true
    · rw [if_pos hc]
      exact hu
    cases hb : before.get (childHandle child) with
    | none =>
      simp only [inlineChild]
      split_ifs
      · exact hu
      · exact hw
    | some was =>
      simp only [memberChild]
      split_ifs with hg
      · exact hu
      rw [not_or, not_not] at hg
      cases hm : CadEdit.memberSetters (childHandle child) was now with
      | none => exact hu
      | some p =>
        dsimp only
        split_ifs
        · exact append hw (refuse _ _ _)
        · exact append hw (memberSetters hg.1 hm)

lemma blockChildren (children : List Entity) :
    ∀ work : BlockWork, Gone removed work.draft.ops →
      Gone removed (blockChildren t before removed name children work).draft.ops := by
  induction children with
  | nil =>
    intro work hw
    exact hw
  | cons child children ih =>
    intro work hw
    have hc := blockChild t before name hw child
    unfold CadEdit.blockChildren
    cases hb : CadEdit.blockChild t before removed name work child with
    | ok w =>
      rw [hb] at hc
      exact ih w hc
    | error w =>
      rw [hb] at hc
      exact hc

lemma defineBlock (added : List AddedRecord) (consumed : List String) (block : BlockDef) :
    Gone removed (defineBlock t before removed added consumed block).2.ops := by
  have hu : Gone removed (unmatched block.name).ops := refuse _ _ _
  have hd : ∀ d : BlockDefinition, Gone removed { Mutations.empty with blockDefs := [d] } := by
    intro d
    constructor <;> simp [Mutations.empty]
  unfold CadEdit.defineBlock
  split
  next base children _ _ =>
    split_ifs
    · exact hu
    · have hw : Gone removed (CadEdit.blockChildren t before removed block.name children
          ⟨consumed, [], [], [], .empty⟩).draft.ops :=
        blockChildren t before block.name children _ empty
      dsimp only
      split
      · split_ifs
        · exact append hw hu
        all_goals exact append hw (hd _)
      · exact append hw hu
  · exact hu

lemma defineBlocks (added : List AddedRecord) (blocks : List BlockDef) :
    ∀ consumed : List String, Gone removed (defineBlocks t before removed added blocks consumed).ops := by
  induction blocks with
  | nil =>
    intro consumed
    exact empty
  | cons block blocks ih =>
    intro consumed
    exact append (defineBlock t before added consumed block) (ih _)

end

lemma gather (h : ∀ d ∈ l, Within k r s d.ops) : Within k r s (Draft.gather l).ops := by
  have hf : ∀ (l : List Draft) (a : Draft), Within k r s a.ops → (∀ d ∈ l, Within k r s d.ops) →
      Within k r s (l.foldl Draft.append a).ops := by
    intro l
    induction l with
    | nil =>
      intro a ha _
      exact ha
    | cons d l ih =>
      intro a ha hl
      rw [forall_mem_cons] at hl
      exact ih _ (append ha hl.1) hl.2
  exact hf l .empty empty h

end Within

structure Part (α : Type) where
  pick : Mutations → List α
  key : α → String
  pick_empty : pick .empty = [] := by rfl
  pick_append : ∀ a b, pick (a.append b) = pick a ++ pick b := by exact fun _ _ => rfl
  pick_sorted : ∀ t m, (pick (m.sorted t)).Perm (pick m) := by exact fun _ _ => mergeSort_perm _ _
  pick_outer : ∀ m blockDefs added addedGroups removedGroups,
    pick { m with blockDefs, added, addedGroups, removedGroups } = pick m := by exact fun _ _ _ _ _ => rfl
  within : ∀ {k s m}, Within k s s m → ∀ a ∈ pick m, s (key a)

namespace Part

def removed : Part String :=
  { pick := Mutations.removed, key := id, within := fun h => h.removed }

def setLayer : Part (String × String) :=
  { pick := Mutations.setLayer, key := fst, within := fun h => h.setLayer }

def setPoints : Part SetPoints :=
  { pick := Mutations.setPoints, key := SetPoints.handle, within := fun h => h.setPoints }

def setCircle : Part (String × Point × ℚ) :=
  { pick := Mutations.setCircle, key := fst, within := fun h => h.setCircle }

def setArc : Part SetArc :=
  { pick := Mutations.setArc, key := SetArc.handle, within := fun h => h.setArc }

def setColor : Part (String × ℚ) :=
  { pick := Mutations.setColor, key := fst, within := fun h => h.setColor }

def setLinetype : Part (String × String) :=
  { pick := Mutations.setLinetype, key := fst, within := fun h => h.setLinetype }

def setLineweight : Part (String × ℚ) :=
  { pick := Mutations.setLineweight, key := fst, within := fun h => h.setLineweight }

variable (p : Part α)

lemma mem_gather : a ∈ p.pick (Draft.gather l).ops ↔ ∃ d ∈ l, a ∈ p.pick d.ops := by
  rw [Draft.pick_gather p.pick p.pick_empty p.pick_append, mem_flatMap]

end Part

variable {h : String}

section

variable (t : JsText) {committed current : Projection} {m : Mutations}

lemma compareBlock_ops (committed current : List BlockDef) (name : String) :
    (compareBlock committed current name).2.ops = .empty := by
  simp only [compareBlock]
  split
  · rfl
  split
  · rfl
  all_goals exact Draft.ops_refuse _ _ _

lemma sortAdded_ops (ordinals blocks : Bool) (added : List AddedRecord) :
    (sortAdded t ordinals blocks added).2.ops = .empty := by
  simp only [sortAdded]
  split_ifs
  · rfl
  · exact Draft.ops_refuse _ _ _
  · exact Draft.ops_refuse _ _ _
  · rfl

lemma sortAdded_perm (ordinals blocks : Bool) (added : List AddedRecord) :
    (sortAdded t ordinals blocks added).1.Perm added := by
  have h := mergeSort_perm added fun a b => t.le a.handle b.handle
  simp only [sortAdded]
  split_ifs
  · exact (mergeSort_perm _ _).trans h
  all_goals exact h

lemma finish_ok {draft : Draft} {added : List AddedRecord} (h : finish t draft added = .ok m) :
    draft.Accepted ∧ m = ({ draft.ops with added } : Mutations).sorted t := by
  unfold finish at h
  dsimp only at h
  split at h
  · cases h
  rename_i hn
  rw [Option.or_eq_none_iff, Option.or_eq_none_iff] at hn
  cases h
  exact ⟨⟨hn.1, hn.2.1⟩, rfl⟩

abbrev Projection.index (p : Projection) : Dict String Geometry := indexByHandle p.entities

abbrev Projection.groupsByName (p : Projection) : Dict String Group := groupMap t p.groups

abbrev planEntities (committed current : Projection) : Draft := entityDraft t committed.index current.index

abbrev planGroups (committed current : Projection) : List (Option (String × List String) × Draft) :=
  addGroups committed.index current.index (committed.groupsByName t) (current.groupsByName t)

structure Origin (committed current : Projection) (m : Mutations) : Prop where
  accepted : (planEntities t committed current).Accepted
  pushed : ∀ {α : Type} (p : Part α) {a : α}, a ∈ p.pick (planEntities t committed current).ops → a ∈ p.pick m
  parts : ∀ {α : Type} (p : Part α) {a : α}, a ∈ p.pick m →
    a ∈ p.pick (planEntities t committed current).ops ∨ p.key a ∈ (planEntities t committed current).ops.removed
  added : m.added.Perm (planEntities t committed current).ops.added
  grown : ∀ g ∈ planGroups t committed current, g.2.Accepted
  members : ∀ g ∈ (planGroups t committed current).filterMap fst, (pushGroup committed.index m.added g).Accepted
  addedGroups : m.addedGroups.Perm (((planGroups t committed current).filterMap fst).flatMap
    fun g => (pushGroup committed.index m.added g).ops.addedGroups)
  removedGroups : m.removedGroups.Perm (removedGroups committed.index current.index
    (committed.groupsByName t) (current.groupsByName t))

lemma entityDraft_within (before after : Dict String Geometry) :
    Within (fun _ => True) (fun _ => True) (fun _ => True) (entityDraft t before after).ops := by
  refine Within.append (Within.gather ?_) (Within.gather ?_)
  · intro d hd
    obtain ⟨p, -, rfl⟩ := mem_map.mp hd
    exact Within.removeOrCompare t trivial trivial after p.2
  · intro d hd
    obtain ⟨p, -, rfl⟩ := mem_map.mp hd
    exact Within.addEntity t trivial before p.2

lemma diffPlan_ok (h : diffPlan t committed current = .ok m) : Origin t committed current m := by
  unfold diffPlan at h
  dsimp only at h
  set B := indexByHandle committed.entities
  set A := indexByHandle current.entities
  set E := entityDraft t B A with hE
  set R := removedGroups B A (groupMap t committed.groups) (groupMap t current.groups)
  set G := addGroups B A (groupMap t committed.groups) (groupMap t current.groups)
  set S := sortAdded t _ _ E.ops.added with hS
  set D := defineBlocks t B E.ops.removed S.1 _ []
  obtain ⟨hacc, rfl⟩ := finish_ok t h
  simp only [Draft.accepted_append] at hacc
  obtain ⟨⟨⟨⟨⟨⟨-, hacE⟩, -⟩, hacG⟩, -⟩, -⟩, hacM⟩ := hacc
  have hb : (blockRefusals committed.blocks current.blocks).ops = .empty := by
    apply Draft.ops_gather
    simp only [compareBlocks, forall_mem_map]
    intro name _
    exact compareBlock_ops _ _ name
  have hgr : (Draft.gather (G.map snd)).ops = .empty := by
    apply Draft.ops_gather
    simp only [G, addGroups, forall_mem_map]
    intro g _
    unfold addGroup
    split
    · rfl
    split
    · exact Draft.ops_refuse _ _ _
    · rfl
  have hD : Within.Gone E.ops.removed D.ops := Within.defineBlocks t B _ _ _
  simp only [Draft.ops_append, Draft.ops_push, hb, hgr, hS, sortAdded_ops, empty_append, append_empty]
  set P := Draft.gather ((G.filterMap fst).map (pushGroup B S.1)) with hP
  set m := ((E.ops.append { empty with removedGroups := R }).append D.ops).append P.ops
  have hp : ∀ {α : Type} (p : Part α), p.pick m = p.pick E.ops ++ p.pick D.ops := by
    intro α p
    have hPnil : p.pick P.ops = [] := by
      rw [hP, Draft.pick_gather p.pick p.pick_empty p.pick_append, flatMap_eq_nil_iff]
      simp only [forall_mem_map]
      intro g _
      unfold pushGroup
      split
      · rw [Draft.ops_push, p.pick_outer empty, p.pick_empty]
      · rw [Draft.ops_refuse, p.pick_empty]
    have hR : p.pick { empty with removedGroups := R } = [] := (p.pick_outer empty [] [] [] R).trans p.pick_empty
    simp [m, p.pick_append, hPnil, hR, append_nil]
  have hmem : ∀ {α : Type} (p : Part α) {a : α},
      a ∈ p.pick (({ m with added := S.1 } : Mutations).sorted t) ↔ a ∈ p.pick E.ops ∨ a ∈ p.pick D.ops := by
    intro α p a
    rw [(p.pick_sorted t _).mem_iff, p.pick_outer m, hp, mem_append]
  have hE' := entityDraft_within t B A
  rw [← hE] at hE'
  refine ⟨hacE, fun p _ ha => (hmem p).mpr (.inl ha), ?_, sortAdded_perm t _ _ _, ?_, ?_, ?_, ?_⟩
  · intro α p a ha
    exact ((hmem p).mp ha).imp_right (p.within hD a)
  · intro g hg
    exact Draft.accepted_gather.mp hacG _ (mem_map_of_mem hg)
  · intro g hg
    exact Draft.accepted_gather.mp hacM _ (mem_map_of_mem hg)
  · refine (mergeSort_perm _ _).trans ?_
    have hm : m.addedGroups = P.ops.addedGroups := by
      simp [m, append, empty, hE'.addedGroups, hD.addedGroups]
    rw [hm, hP, Draft.pick_gather addedGroups rfl (fun _ _ => rfl), flatMap_map]
    exact Perm.refl _
  · refine (mergeSort_perm _ _).trans ?_
    have hPnil : P.ops.removedGroups = [] := by
      rw [hP, Draft.pick_gather Mutations.removedGroups rfl (fun _ _ => rfl), flatMap_eq_nil_iff]
      simp only [forall_mem_map]
      intro g _
      unfold pushGroup
      split <;> simp [empty]
    have hm : m.removedGroups = R := by
      simp [m, append, empty, hE'.removedGroups, hD.removedGroups, hPnil]
    rw [hm]

variable {after before : Dict String Geometry} {was now : Geometry}

lemma Part.mem_entityDraft (p : Part α) :
    a ∈ p.pick (entityDraft t before after).ops ↔
      ∃ was, before.get (p.key a) = some was ∧ a ∈ p.pick (removeOrCompare t (p.key a) after was).ops := by
  rw [entityDraft, Draft.ops_append, p.pick_append, mem_append, p.mem_gather, p.mem_gather]
  constructor
  · rintro (⟨d, hd, ha⟩ | ⟨d, hd, ha⟩)
    · obtain ⟨⟨h, was⟩, hr, rfl⟩ := mem_map.mp hd
      have hw : Within (fun _ => False) (h = ·) (h = ·) (removeOrCompare t h after was).ops :=
        Within.removeOrCompare t rfl rfl after was
      have hk : h = p.key a := p.within hw a ha
      rw [← hk]
      exact ⟨was, get_some.mpr hr, ha⟩
    · obtain ⟨⟨h, now⟩, -, rfl⟩ := mem_map.mp hd
      have hw : Within (fun _ => True) (fun _ => False) (fun _ => False)
          (addEntity t h before now).ops := Within.addEntity t trivial before now
      exact (p.within hw a ha).elim
  · rintro ⟨was, hwas, ha⟩
    exact .inl ⟨_, mem_map_of_mem (get_some.mp hwas), ha⟩

lemma mem_added_entityDraft {r : AddedRecord} :
    r ∈ (entityDraft t before after).ops.added ↔
      ∃ now, after.get r.handle = some now ∧ r ∈ (addEntity t r.handle before now).ops.added := by
  have ha : (entityDraft t before after).ops.added =
      (before.rows.map fun p => removeOrCompare t p.1 after p.2).flatMap (fun d => d.ops.added) ++
        (after.rows.map fun p => addEntity t p.1 before p.2).flatMap fun d => d.ops.added := by
    rw [← Draft.pick_gather added rfl (fun _ _ => rfl), ← Draft.pick_gather added rfl (fun _ _ => rfl)]
    rfl
  rw [ha, mem_append, mem_flatMap, mem_flatMap]
  constructor
  · rintro (⟨d, hd, hr⟩ | ⟨d, hd, hr⟩)
    · obtain ⟨⟨h, was⟩, -, rfl⟩ := mem_map.mp hd
      have hw : Within (fun _ => False) (fun _ => True) (fun _ => True)
          (removeOrCompare t h after was).ops := Within.removeOrCompare t trivial trivial after was
      exact (hw.added r hr).elim
    · obtain ⟨⟨h, now⟩, hrow, rfl⟩ := mem_map.mp hd
      have hw : Within (h = ·) (fun _ => True) (fun _ => True) (addEntity t h before now).ops :=
        Within.addEntity t rfl before now
      have hk : h = r.handle := hw.added r hr
      rw [← hk]
      exact ⟨now, get_some.mpr hrow, hr⟩
  · rintro ⟨now, hn, hr⟩
    exact .inr ⟨_, mem_map_of_mem (get_some.mp hn), hr⟩

lemma accepted_removeOrCompare (ha : (entityDraft t before after).Accepted) (hw : before.get h = some was) :
    (removeOrCompare t h after was).Accepted := by
  rw [entityDraft, Draft.accepted_append, Draft.accepted_gather] at ha
  exact ha.1 _ (mem_map_of_mem (get_some.mp hw))

lemma accepted_addEntity (ha : (entityDraft t before after).Accepted) (hn : after.get h = some now) :
    (addEntity t h before now).Accepted := by
  rw [entityDraft, Draft.accepted_append, Draft.accepted_gather, Draft.accepted_gather] at ha
  exact ha.2 _ (mem_map_of_mem (get_some.mp hn))

namespace Origin

variable {t} (ho : Origin t committed current m)

include ho

lemma mem_removed : h ∈ m.removed ↔ (∃ was, committed.index.get h = some was) ∧ current.index.get h = none := by
  have hp : h ∈ m.removed ↔ h ∈ Part.removed.pick (planEntities t committed current).ops :=
    ⟨fun hm => (ho.parts Part.removed hm).elim id id, fun hm => ho.pushed Part.removed hm⟩
  rw [hp, Part.mem_entityDraft]
  constructor
  · rintro ⟨was, hwas, hm⟩
    refine ⟨⟨was, hwas⟩, ?_⟩
    cases hn : current.index.get h with
    | none => rfl
    | some now =>
      have hw : Within (fun _ => False) (fun _ => False) (fun _ => True) (compareEntity t h was now).ops :=
        Within.compareEntity t trivial was now
      change h ∈ (removeOrCompare t h current.index was).ops.removed at hm
      simp only [removeOrCompare, hn] at hm
      exact (hw.removed h hm).elim
  · rintro ⟨⟨was, hwas⟩, hn⟩
    have ha := accepted_removeOrCompare t ho.accepted hwas
    refine ⟨was, hwas, ?_⟩
    change h ∈ (removeOrCompare t h current.index was).ops.removed
    simp only [removeOrCompare, hn] at ha ⊢
    cases hty : was.opaqueType with
    | none => simp
    | some type =>
      rw [hty] at ha
      exact (Draft.not_accepted_refuse ha).elim

end Origin

end

end LeafWeb.CadEdit
