import LeafWeb.Mutation.Containment

namespace LeafWeb.Mutation

open Lib List BlockDef Parts

def RawMember.renumber (σ : ℕ → ℕ) : RawMember → RawMember
  | .handle h => .handle h
  | .add n => .add (σ n.toNat)

def RawGroup.renumber (σ : ℕ → ℕ) (g : RawGroup) : RawGroup :=
  { g with members := g.members.map (RawMember.renumber σ) }

def RawBlockDef.renumber (σ : ℕ → ℕ) (b : RawBlockDef) : RawBlockDef := { b with insert := σ b.insert.toNat }

def BlockDef.renumber (σ : ℕ → ℕ) (b : BlockDef) : BlockDef := { b with insert := σ b.insert }

/-- The entries in another order; `σ` takes the place of an addition to its new place. -/
structure Reorders (σ : ℕ → ℕ) (raw raw' : Raw) : Prop where
  added : raw'.added.Perm raw.added
  moved : ∀ i < raw.added.length, raw'.added[σ i]? = raw.added[i]?
  removed : raw'.removed.Perm raw.removed
  transforms : raw'.transforms.Perm raw.transforms
  setLayer : raw'.setLayer.Perm raw.setLayer
  setPoints : raw'.setPoints.Perm raw.setPoints
  setCircle : raw'.setCircle.Perm raw.setCircle
  setArc : raw'.setArc.Perm raw.setArc
  setColor : raw'.setColor.Perm raw.setColor
  setLinetype : raw'.setLinetype.Perm raw.setLinetype
  setLineweight : raw'.setLineweight.Perm raw.setLineweight
  addedGroups : raw'.addedGroups.Perm (raw.addedGroups.map (RawGroup.renumber σ))
  removedGroups : raw'.removedGroups.Perm raw.removedGroups
  blockDefs : raw'.blockDefs.Perm (raw.blockDefs.map (RawBlockDef.renumber σ))

/-- The JSON text of an addition tells its handle. -/
def Arith.Naming (A : Arith) : Prop := ∀ p q : Placed, A.json p = A.json q → p.handle = q.handle

def Intake.handles (intake : Intake) : List String :=
  ([.polylines, .circles, .arcs, .texts, .inserts, .dimensions, .mleaders, .points, .ellipses].flatMap
    intake.rows).filterMap Entity.handle

def Intake.HexDistinct (intake : Intake) : Prop :=
  ∀ h ∈ intake.handles, ∀ h' ∈ intake.handles, safeExisting h → safeExisting h' → hexValue h = hexValue h' → h = h'

variable {B C K : Type} {base base' : B → C → Prop} {as as' : List B} {bs : List C} {key : C → K}

lemma Collected.imp (h : Collected base key as bs) (hb : ∀ a b, base a b → base' a b) :
    Collected base' key as bs :=
  ⟨h.1.imp hb, h.2⟩

lemma forall₂_reorder (h : Forall₂ base as bs) (hp : as'.Perm as) : ∃ bs', bs'.Perm bs ∧ Forall₂ base as' bs' := by
  obtain ⟨bs', ha, hpr⟩ := perm_comp_forall₂ hp h
  exact ⟨bs', hpr, ha⟩

lemma Collected.reorder (h : Collected base key as bs) (hp : as'.Perm as) :
    ∃ bs', bs'.Perm bs ∧ Collected base key as' bs' := by
  obtain ⟨bs', hpr, ha⟩ := forall₂_reorder h.1 hp
  exact ⟨bs', hpr, ha, (hpr.map key).nodup_iff.mpr h.2⟩

lemma Collected.map_left {D : Type} {f : B → D} {base' : D → C → Prop} (h : Collected base key as bs)
    (hb : ∀ a b, base a b → base' (f a) b) : Collected base' key (as.map f) bs :=
  ⟨forall₂_map_left_iff.mpr (h.1.imp hb), h.2⟩

variable {A : Arith} {intake : Intake} {flags : Flags} {index : Index} {t : Targets}
  {removed removed' names names' : List String} {e : Entity} {V : Type} {t' : Targets}

lemma Transforms.same {op : Transform} {raw : RawTransform} (h : Transforms flags index removed raw op)
    (hr : removed'.Perm removed) : Transforms flags index removed' raw op :=
  { h with kept := fun hm => h.kept (hr.mem_iff.mp hm) }

lemma SetsLayer.same {s raw : SetLayer} (h : SetsLayer flags t raw s) (ht : t.Same t') :
    SetsLayer flags t' raw s := by
  obtain ⟨hr, hs, e, htr, hm⟩ := h
  exact ⟨hr, hs, e, htr.same ht, hm⟩

lemma SetsPoints.same {s : SetPoints} {raw : RawSetPoints} (h : SetsPoints A flags t raw s e)
    (ht : t.Same t') : SetsPoints A flags t' raw s e :=
  { h with
    target := h.target.same ht
    still := fun hm => h.still ((ht.transformed _).mpr hm)
    planar := fun hm => h.planar ((ht.consumed _).mpr hm) }

lemma SetsCircle.same {s : SetCircle} {raw : RawSetCircle} (h : SetsCircle flags t raw s e)
    (ht : t.Same t') : SetsCircle flags t' raw s e :=
  { h with target := h.target.same ht }

lemma SetsArc.same {s : SetArc} {raw : RawSetArc} (h : SetsArc flags t raw s e) (ht : t.Same t') :
    SetsArc flags t' raw s e :=
  { h with target := h.target.same ht }

lemma SetsStyle.same {s : StyleOp V} {inserts : List Entity} {rule : StyleRule V} {raw : StyleOp V}
    (h : SetsStyle flags intake t inserts rule raw s) (ht : t.Same t') :
    SetsStyle flags intake t' inserts rule raw s :=
  { h with
    kept := fun hm => h.kept ((ht.removed _).mpr hm)
    known := ht.index ▸ h.known
    kind := ht.index ▸ h.kind }

variable {σ : ℕ → ℕ} {raw raw' : Raw} {b : RawBlockDef} {blockDefs : List BlockDef} {i : ℕ}

lemma sortOn_renumber (ds : List BlockDef) (h : (ds.map name).Nodup) :
    sortOn name (ds.map (renumber σ)) = (sortOn name ds).map (renumber σ) := by
  have hn : ((ds.map (renumber σ)).map name).Nodup := by
    rw [map_map]
    exact h
  have hs : (ds.map (renumber σ)).Perm ((sortOn name ds).map (renumber σ)) := ((sortOn_perm name ds).map _).symm
  rw [sortOn_eq_of_perm hs hn]
  apply sortOn_of_map_eq (m := ds)
  rw [map_map]
  rfl

section

variable (hr : Reorders σ raw raw')

include hr

lemma Reorders.memberFits {x : String} (h : MemberFits intake index raw x) : MemberFits intake index raw' x :=
  { h with
    unmoved := by
      rw [(hr.transforms.map _).mem_iff]
      exact h.unmoved
    unstyled := by
      rw [(hr.setColor.map _).mem_iff, (hr.setLinetype.map _).mem_iff, (hr.setLineweight.map _).mem_iff]
      exact h.unstyled
    removed := hr.removed.mem_iff.mpr h.removed }

lemma Reorders.matchingInsert {n : ℕ} (h : matchingInsert raw.added b = .ok n) :
    Mutation.matchingInsert raw'.added (b.renumber σ) = .ok (σ n) := by
  obtain ⟨hi, hc, r, hg, hs⟩ := matchingInsert_eq_ok.mp h
  have hlt := (List.getElem?_eq_some_iff.mp hg).1
  refine matchingInsert_eq_ok.mpr ⟨?_, ?_, r, ?_, ?_⟩
  · rw [RawBlockDef.renumber, hi, Int.toNat_natCast]
  · rw [hr.added.countP_eq]
    exact hc
  · rw [hr.moved n hlt, hg]
  · exact ⟨hs.kind, hs.name, hs.layer, hs.pt, hs.rot, hs.scale⟩

lemma Reorders.defines {d : BlockDef} (h : Defines A intake index raw b d) :
    Defines A intake index raw' (b.renumber σ) (d.renumber σ) where
  name := h.name
  named := h.named
  fresh := h.fresh
  length := h.length
  base := h.base
  size := h.size
  children := h.children
  members := h.members
  fits x hx := hr.memberFits (h.fits x hx)
  distinct := h.distinct
  order := h.order
  ordered := h.ordered
  insert := hr.matchingInsert h.insert

lemma Reorders.definitions {ds : List BlockDef} (h : Definitions A intake index raw ds) :
    ∃ ds', Definitions A intake index raw' ds' ∧ sortOn name ds' = (sortOn name ds).map (renumber σ) := by
  have ha : Forall₂ (Defines A intake index raw') (raw.blockDefs.map (RawBlockDef.renumber σ))
      (ds.map (renumber σ)) := by
    rw [forall₂_map_left_iff, forall₂_map_right_iff]
    exact h.defines.imp fun _ _ hd => hr.defines hd
  obtain ⟨ds', hp, hdf⟩ := forall₂_reorder ha hr.blockDefs
  have hn : (ds.map name).Nodup := by
    have hf : ((ds.map name).map foldText).Nodup := by
      rw [map_map]
      exact h.names
    exact hf.of_map _
  have hn' : (ds'.map name).Perm (ds.map name) := by
    have hm := hp.map name
    rwa [map_map] at hm
  refine ⟨ds', ⟨hdf, ?_, ?_⟩, ?_⟩
  · have hm := hp.map fun d => foldText d.name
    rw [map_map] at hm
    exact hm.nodup_iff.mpr h.names
  · have hm := (hp.flatMap_right members).map upperText
    rw [flatMap_map] at hm
    exact hm.nodup_iff.mpr h.members
  · rw [sortOn_eq_of_perm hp (hn'.nodup_iff.mpr hn), sortOn_renumber ds hn]

lemma Reorders.opCount : opCount (blockDefs.map (renumber σ)) raw' = Mutation.opCount blockDefs raw := by
  have hc : childrenOf (blockDefs.map (renumber σ)) = childrenOf blockDefs := by
    rw [childrenOf, flatMap_map]
    rfl
  simp [Mutation.opCount, hc, hr.added.length_eq, hr.removed.length_eq,
    hr.transforms.length_eq, hr.setLayer.length_eq, hr.setPoints.length_eq, hr.setCircle.length_eq,
    hr.setArc.length_eq, hr.setColor.length_eq, hr.setLinetype.length_eq, hr.setLineweight.length_eq,
    hr.addedGroups.length_eq, hr.removedGroups.length_eq]

lemma Reorders.propertyInserts :
    propertyInserts intake index raw' = Mutation.propertyInserts intake index raw := by
  have hn : ∀ {V : Type} [DecidableEq V] {l l' : List V}, l'.Perm l → decide (l' ≠ []) = decide (l ≠ []) := by
    intro V _ l l' hp
    rw [decide_eq_decide, ne_eq, ne_eq, ← length_eq_zero_iff, hp.length_eq, length_eq_zero_iff]
  rw [Mutation.propertyInserts, Mutation.propertyInserts, Raw.styleOps, Raw.styleOps, hn hr.setColor,
    hn hr.setLinetype, hn hr.setLineweight]

lemma Reorders.ordinals (added : List Placed) (hi : i < raw.added.length) :
    ordinalOf added raw'.added (σ i) = ordinalOf added raw.added i ∧ σ i < raw.added.length := by
  have hm := hr.moved i hi
  refine ⟨by rw [ordinalOf, ordinalOf, hm], ?_⟩
  rw [getElem?_eq_getElem hi] at hm
  rw [← hr.added.length_eq]
  exact (List.getElem?_eq_some_iff.mp hm).1

end

variable {p p' : Parts} {x : String} {placed placed' : List Placed}
  {o o' : Ordinals}

lemma sortAdded_eq (hA : A.Naming) (hp : placed'.Perm placed)
    (hn : (placed.map Placed.handle).Nodup) : sortAdded A placed' = sortAdded A placed := by
  have hj : (placed.map A.json).Nodup := by
    refine Nodup.map_on ?_ (hn.of_map _)
    intro x hx y hy heq
    exact inj_on_of_nodup_map hn hx hy (hA x y heq)
  exact sortOn_eq_of_perm hp ((hp.map A.json).nodup_iff.mpr hj)

lemma lookup_eq_of_perm {l l' : List (Option String × V)} (hp : l'.Perm l)
    (hl : (l.map Prod.fst).Nodup) (k : Option String) : l'.lookup k = l.lookup k := by
  have hl' : (l'.map Prod.fst).Nodup := (hp.map Prod.fst).nodup_iff.mpr hl
  by_cases hk : ∃ v, (k, v) ∈ l
  · obtain ⟨v, hv⟩ := hk
    rw [lookup_of_mem hl hv, lookup_of_mem hl' (hp.mem_iff.mpr hv)]
  · have hn : ∀ m : List (Option String × V), m.Perm l → m.lookup k = none := by
      intro m hm
      rw [lookup_eq_none_iff]
      intro e he
      rw [bne_iff_ne]
      rintro rfl
      exact hk ⟨e.2, hm.mem_iff.mp he⟩
    rw [hn l (Perm.refl l), hn l' hp]

lemma Joins.reorder {m : Member} {r : RawMember} (hr : removed'.Perm removed)
    (ha : o'.added = o.added) (hof : ∀ i < o.added.length, o'.of (σ i) = o.of i)
    (hlt : ∀ i < o.added.length, σ i < o.added.length) (h : Joins intake removed o r m) :
    Joins intake removed' o' (r.renumber σ) m := by
  cases h with
  | handle x hs hl hm hk =>
    refine .handle x hs hl hm ?_
    rw [(hr.map upperText).mem_iff]
    exact hk
  | add n hn hl =>
    rw [← hof n hn]
    refine .add (σ n) ?_ ?_
    · rw [ha]
      exact hlt n hn
    · rw [ha, hof n hn]
      exact hl

lemma Groups.reorder {r : RawGroup} {g : Group} (o' : Ordinals)
    (hr : removed'.Perm removed) (hn : names'.Perm names) (ha : o'.added = o.added)
    (hof : ∀ i < o.added.length, o'.of (σ i) = o.of i) (hlt : ∀ i < o.added.length, σ i < o.added.length)
    (h : Groups intake removed names o r g) : Groups intake removed' names' o' (r.renumber σ) g where
  named := h.named
  free := by
    rw [(hn.map foldText).mem_iff]
    exact h.free
  enough := by
    rw [RawGroup.renumber, length_map]
    exact h.enough
  joins := by
    rw [RawGroup.renumber, forall₂_map_left_iff]
    exact h.joins.imp fun _ _ hj => hj.reorder hr ha hof hlt
  nodup := h.nodup

lemma mem_handles {field : Field} (he : e ∈ intake.rows field) (hh : e.handle = some x) : x ∈ intake.handles := by
  refine mem_filterMap.mpr ⟨e, mem_flatMap.mpr ⟨field, ?_, he⟩, hh⟩
  cases field <;> decide

variable {inserts : List Entity}

lemma mem_handles_of_index {row : Kind × Entity} (hi : indexIntake intake = .ok index)
    (hg : index.get x = some row) : x ∈ intake.handles := by
  simp only [indexIntake, bind_refuse, pure_eq_ok] at hi
  obtain ⟨-, rfl⟩ := hi
  obtain ⟨hm, hn⟩ := mem_of_get_unique hg
  have hh : row.2.handle = some x := (Option.filter_eq_some_iff.mp hn).1
  simp only [indexedRows, mem_append, mem_map] at hm
  rcases hm with (((⟨e, he, rfl⟩ | ⟨e, he, rfl⟩) | ⟨e, he, rfl⟩) | ⟨e, he, rfl⟩) | ⟨e, he, rfl⟩
  all_goals exact mem_handles he hh

lemma mem_handles_of_inserts (hi : propertyInserts intake index raw = .ok inserts)
    (hmem : some x ∈ inserts.map Entity.handle) : x ∈ intake.handles := by
  obtain ⟨e, he, hh⟩ := mem_map.mp hmem
  unfold propertyInserts at hi
  split_ifs at hi
  · obtain ⟨e', he', _, hm⟩ := (exists_of_gather hi he).resolve_left not_mem_nil
    simp only [bind_refuse, pure_eq_ok] at hm
    rw [← hm.2] at hh
    exact mem_handles he' hh
  · cases hi
    cases he

lemma sortByValue_eq {V : Type} {rule : StyleRule V} {rs ops ops' : List (StyleOp V)} (hh : intake.HexDistinct)
    (hin : indexIntake intake = .ok index) (hi : propertyInserts intake index raw = .ok inserts)
    (ht : t.index = index) (h : Collected (SetsStyle flags intake t inserts rule) StyleOp.handle rs ops)
    (hp : ops'.Perm ops) : sortByValue ops' = sortByValue ops := by
  have hk : ∀ op ∈ ops, safeExisting op.handle ∧ op.handle ∈ intake.handles := by
    intro op hop
    obtain ⟨_, -, hset⟩ := h.exists_base hop
    refine ⟨hset.safe, ?_⟩
    rcases not_and_or.mp hset.known with hg | hm
    · rw [ht] at hg
      obtain ⟨row, hr⟩ := Option.ne_none_iff_exists'.mp hg
      exact mem_handles_of_index hin hr
    · exact mem_handles_of_inserts hi (not_not.mp hm)
  have hv : (ops.map fun op => hexValue op.handle).Nodup := by
    refine Nodup.map_on ?_ (h.2.of_map _)
    intro x hx y hy heq
    obtain ⟨hs, hm⟩ := hk x hx
    obtain ⟨hs', hm'⟩ := hk y hy
    exact inj_on_of_nodup_map h.2 hx hy (hh _ hm _ hm' hs hs' heq)
  exact sortOn_eq_of_perm hp ((hp.map _).nodup_iff.mpr hv)

structure Parts.Reorders (p p' : Parts) : Prop where
  removed : p'.removed.Perm p.removed
  transforms : p'.transforms.Perm p.transforms
  setLayer : p'.setLayer.Perm p.setLayer
  setPoints : p'.setPoints.Perm p.setPoints
  setCircle : p'.setCircle.Perm p.setCircle
  setArc : p'.setArc.Perm p.setArc
  placed : p'.placed.Perm p.placed
  styles : p'.styles.Perm p.styles
  inserts : p'.inserts = p.inserts
  removedGroups : p'.removedGroups.Perm p.removedGroups
  groups : p'.groups.Perm p.groups
  setColor : p'.setColor.Perm p.setColor
  setLinetype : p'.setLinetype.Perm p.setLinetype
  setLineweight : p'.setLineweight.Perm p.setLineweight

lemma renumber_names : (blockDefs.map (renumber σ)).map name = blockDefs.map name := by
  rw [map_map]
  rfl

lemma Parts.Reorders.targets (hp : p.Reorders p') (index : Index) (blockDefs : List BlockDef) (σ : ℕ → ℕ) :
    (p.targets index blockDefs).Same (p'.targets index (blockDefs.map (renumber σ))) := by
  refine ⟨rfl, fun _ => hp.removed.mem_iff.symm, fun _ => ?_, fun _ => (hp.transforms.map _).mem_iff.symm⟩
  rw [Parts.targets, Parts.targets, flatMap_map]
  rfl

lemma Parts.Reorders.mem_edited (hp : p.Reorders p') (x : String) : x ∈ p'.edited ↔ x ∈ p.edited := by
  rw [edited, edited, mem_append, mem_append, (hp.setPoints.map _).mem_iff, (hp.setCircle.map _).mem_iff]

section

variable (h : Checks A intake flags index blockDefs raw p) (hA : A.Naming) (hr : Reorders σ raw raw')

include h hA

lemma Checks.sorted (hp : p.Reorders p') : sortAdded A p'.placed = sortAdded A p.placed :=
  sortAdded_eq hA hp.placed h.placed.2

include hr

lemma Checks.ordinals_reorder (hp : p.Reorders p') (hi : i < raw.added.length) :
    (p'.ordinals A raw').of (σ i) = (p.ordinals A raw).of i := by
  rw [ordinals, ordinals, Ordinals.of, Ordinals.of, h.sorted hA hp]
  exact (hr.ordinals _ hi).1

variable (hh : intake.HexDistinct) (hin : indexIntake intake = .ok index)
  (hi : ∀ b ∈ blockDefs, b.insert < raw.added.length)

include hh hin hi

lemma Checks.canonical_reorder (hp : p.Reorders p') :
    p'.canonical A index (blockDefs.map (renumber σ)) raw' = p.canonical A index blockDefs raw := by
  have hbl : (blockDefs.map (renumber σ)).map
      (fun b => { b with insert := (p'.ordinals A raw').of b.insert }) =
        blockDefs.map fun b => { b with insert := (p.ordinals A raw).of b.insert } := by
    rw [map_map]
    refine map_congr_left ?_
    intro b hb
    simp [renumber, h.ordinals_reorder hA hr hp (hi b hb)]
  have hk : (p.styles.map Prod.fst).Nodup := by
    rw [← map_eq_of_forall₂ (stylesOf_eq_ok.mp h.styles) fun _ _ hs => hs.1, Mutation.handles_eq h.placed.1]
    exact nodup_some_handles h.placed.2
  have ha : (sortAdded A p'.placed).map (styled p'.styles) = (sortAdded A p.placed).map (styled p.styles) := by
    rw [h.sorted hA hp]
    refine map_congr_left ?_
    intro q _
    rw [styled, styled, lookup_eq_of_perm hp.styles hk]
  have hg : (p.groups.map Group.name).Nodup := by
    have hf : ((p.groups.map Group.name).map foldText).Nodup := by
      rw [map_map]
      exact h.groups.2
    exact hf.of_map _
  have hrm : (p.removedGroups.map id).Nodup := by
    rw [map_id]
    exact h.removedGroups.2.of_map _
  have sorted_of : ∀ {B : Type} {key : B → String} {l l' : List B}, l'.Perm l → (l.map key).Nodup →
      sortOn key l' = sortOn key l :=
    fun hpr hn => sortOn_eq_of_perm hpr ((hpr.map _).nodup_iff.mpr hn)
  have hst : ∀ {V : Type} {rule : StyleRule V} {rs ops ops' : List (StyleOp V)},
      Collected (SetsStyle flags intake (p.targets index blockDefs) p.inserts rule) StyleOp.handle rs ops →
        ops'.Perm ops → sortByValue ops' = sortByValue ops :=
    fun hset hpr => sortByValue_eq hh hin h.inserts rfl hset hpr
  have hrv : p.removed.Nodup := by simpa using h.removed.2
  simp only [canonical, Canonical.mk.injEq]
  exact ⟨hbl, sorted_of hp.groups hg, sorted_of hp.removedGroups hrm,
    hst h.setColor hp.setColor, hst h.setLinetype hp.setLinetype,
    hst h.setLineweight hp.setLineweight, ha, sorted_of hp.removed h.removed.2,
    sortOn_removedKinds hp.removed hrv, sorted_of hp.transforms h.transforms.2,
    sorted_of hp.setLayer h.setLayer.2, sorted_of hp.setPoints h.setPoints.2,
    sorted_of hp.setCircle h.setCircle.2, sorted_of hp.setArc h.setArc.2⟩

lemma Checks.exists_reorder :
    ∃ p', p.Reorders p' ∧ Checks A intake flags index (blockDefs.map (renumber σ)) raw' p' := by
  obtain ⟨removed, premoved, hrv⟩ := h.removed.reorder hr.removed
  obtain ⟨transforms, ptransforms, htn⟩ := h.transforms.reorder hr.transforms
  obtain ⟨setLayer, psetLayer, hsy⟩ := h.setLayer.reorder hr.setLayer
  obtain ⟨setPoints, psetPoints, hsp⟩ := h.setPoints.reorder hr.setPoints
  obtain ⟨setCircle, psetCircle, hsc⟩ := h.setCircle.reorder hr.setCircle
  obtain ⟨setArc, psetArc, hsetArc⟩ := h.setArc.reorder hr.setArc
  obtain ⟨placed, pplaced, hpl⟩ := h.placed.reorder hr.added
  obtain ⟨styles, pstyles, hstyles⟩ := forall₂_reorder (stylesOf_eq_ok.mp h.styles) hr.added
  obtain ⟨removedGroups, premovedGroups, hrm⟩ := h.removedGroups.reorder hr.removedGroups
  have hsr : sortAdded A placed = sortAdded A p.placed := sortAdded_eq hA pplaced h.placed.2
  have hl : (p.ordinals A raw).added.length = raw.added.length := by
    rw [ordinals, sortAdded, length_sortOn, h.placed.length_eq]
  obtain ⟨groups, pgroups, hgr⟩ := (h.groups.map_left fun _ _ hg =>
    hg.reorder ⟨sortAdded A placed, raw'.added⟩ premoved premovedGroups hsr
      (fun i hi => by
        rw [hl] at hi
        rw [Ordinals.of, hsr]
        exact (hr.ordinals _ hi).1)
      (fun i hi => by
        rw [hl] at hi ⊢
        exact (hr.ordinals [] hi).2)).reorder hr.addedGroups
  obtain ⟨setColor, psetColor, hse⟩ := h.setColor.reorder hr.setColor
  obtain ⟨setLinetype, psetLinetype, hsl⟩ := h.setLinetype.reorder hr.setLinetype
  obtain ⟨setLineweight, psetLineweight, hst⟩ := h.setLineweight.reorder hr.setLineweight
  have hp : p.Reorders ⟨removed, transforms, setLayer, setPoints, setCircle, setArc, placed, styles, p.inserts,
      removedGroups, groups, setColor, setLinetype, setLineweight⟩ :=
    ⟨premoved, ptransforms, psetLayer, psetPoints, psetCircle, psetArc, pplaced, pstyles, rfl, premovedGroups,
      pgroups, psetColor, psetLinetype, psetLineweight⟩
  have htr := hp.targets index blockDefs σ
  refine ⟨_, hp, ?_⟩
  exact
    { nonempty := by rw [hr.opCount]; exact h.nonempty
      few := by rw [hr.opCount]; exact h.few
      removed := hrv
      movable := by
        rw [ne_eq, ← length_eq_zero_iff, hr.transforms.length_eq, length_eq_zero_iff]
        exact h.movable
      transforms := htn.imp fun _ _ ht => ht.same premoved
      setLayer := hsy.imp fun _ _ hs => hs.same htr
      setPoints := hsp.imp fun _ _ hs => hs.imp fun _ he => he.same htr
      setCircle := hsc.imp fun _ _ hs => ⟨hs.1.imp fun _ he => he.same htr,
        fun hm => hs.2 ((psetPoints.map _).mem_iff.mp hm)⟩
      setArc := hsetArc.imp fun _ _ hs =>
        ⟨hs.1.imp fun _ he => he.same htr, fun hm => hs.2 ((hp.mem_edited _).mp hm)⟩
      placed := by rw [renumber_names]; exact hpl
      points := by
        have hc : childPoints (blockDefs.map (renumber σ)) = childPoints blockDefs := by
          rw [childPoints, childrenOf, flatMap_map]
          rfl
        have hsum : setPointsTotal setPoints = setPointsTotal p.setPoints := (psetPoints.map _).sum_eq
        have hsum' : placedTotal placed = placedTotal p.placed := (pplaced.map _).sum_eq
        rw [hc, hsum, hsum']
        exact h.points
      styles := stylesOf_eq_ok.mpr hstyles
      inserts := by rw [hr.propertyInserts]; exact h.inserts
      removedGroups := hrm
      groups := hgr
      setColor := hse.imp fun _ _ hs => hs.same htr
      setLinetype := hsl.imp fun _ _ hs => hs.same htr
      setLineweight := hst.imp fun _ _ hs => hs.same htr
      bytes := by
        rw [h.canonical_reorder hA hr hh hin hi hp]
        exact h.bytes }

end

def planOf (A : Arith) (F : Format) (intake : Intake) (flags : Flags) (raw : Raw) (baseSha256 : String)
    (contract : Option ℤ) : Except String String := do
  let c ← validateMutations A intake flags raw
  emitPlan A F c baseSha256 (some intake) contract

def planSha256 (sha256 : String → String) (plan : String) : String := sha256 plan

theorem reordered_same (hA : A.Naming) (hhex : intake.HexDistinct) (hr : Reorders σ raw raw') {c : Canonical}
    (h : validateMutations A intake flags raw = .ok c) :
    validateMutations A intake flags raw' = .ok c ∧
      ∀ F sha contract sha256,
        planOf A F intake flags raw' sha contract = planOf A F intake flags raw sha contract ∧
        (planSha256 sha256 <$> planOf A F intake flags raw' sha contract) =
          planSha256 sha256 <$> planOf A F intake flags raw sha contract := by
  have hsm : validateMutations A intake flags raw' = .ok c := by
    obtain ⟨index, ds, p, hi, hds, hc, hp, rfl⟩ := validateMutations_eq_ok.mp h
    obtain ⟨ds', hds', hs⟩ := hr.definitions hds
    have hin : ∀ b ∈ sortOn name ds, b.insert < raw.added.length := by
      intro d hd
      obtain ⟨b, -, hb⟩ := hds.exists_raw (mem_sortOn.mp hd)
      rw [hp.placed.length_eq]
      exact hp.insert_lt hb
    obtain ⟨p', hpr, hp'⟩ := hp.exists_reorder hA hr hhex hi hin
    refine validateMutations_eq_ok.mpr ⟨index, ds', p', hi, hds', ?_, ?_, ?_⟩
    · refine hc.imp_left fun hn => ?_
      have hpm := hr.blockDefs
      rw [hn] at hpm
      exact hpm.eq_nil
    · rw [hs]
      exact hp'
    · rw [hs]
      exact hp.canonical_reorder hA hr hhex hi hin hpr
  refine ⟨hsm, fun F sha contract sha256 => ?_⟩
  rw [planOf, planOf, hsm, h]
  exact ⟨rfl, rfl⟩

def unitCircle (handle : String) : RawAdded :=
  { RawAdded.blank with
    handle := some handle, kind := some "CIRCLE", layer := some "0", c := some [0, 0, 0], r := some 1 }

def pairOf (first second one other : String) : Raw :=
  { Raw.empty with
    added := [unitCircle first, unitCircle second]
    setLayer := [⟨one, "walls"⟩, ⟨other, "walls"⟩] }

theorem pair_reordered_same :
    ∃ c, validateMutations exactArith (.circles ["2f", "30"]) .default (pairOf "b" "a" "30" "2f") = .ok c ∧
      validateMutations exactArith (.circles ["2f", "30"]) .default (pairOf "a" "b" "2f" "30") = .ok c := by
  have hok : (validateMutations exactArith (.circles ["2f", "30"]) .default
      (pairOf "b" "a" "30" "2f")).isOk = true := by decide +kernel
  have hh : (Intake.circles ["2f", "30"]).HexDistinct := by
    unfold Intake.HexDistinct
    decide +kernel
  have hr : Reorders (fun i => 1 - i) (pairOf "b" "a" "30" "2f") (pairOf "a" "b" "2f" "30") :=
    { added := Perm.swap _ _ _
      moved := by decide
      removed := .refl _
      transforms := .refl _
      setLayer := Perm.swap _ _ _
      setPoints := .refl _
      setCircle := .refl _
      setArc := .refl _
      setColor := .refl _
      setLinetype := .refl _
      setLineweight := .refl _
      addedGroups := .refl _
      removedGroups := .refl _
      blockDefs := .refl _ }
  cases h : validateMutations exactArith (.circles ["2f", "30"]) .default (pairOf "b" "a" "30" "2f") with
  | error e =>
    rw [h] at hok
    cases hok
  | ok c => exact ⟨c, rfl, (reordered_same (fun _ _ heq => heq) hh hr h).1⟩

end LeafWeb.Mutation
