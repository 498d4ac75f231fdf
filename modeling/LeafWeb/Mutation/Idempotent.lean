import LeafWeb.Mutation.Ordinals

namespace LeafWeb.Mutation

open Lib Function List Parts BlockDef

/-- Every name the drawing respells is one the contract takes, and every dimension line stays where
rounding puts it. -/
structure Raw.Settled (A : Arith) (intake : Intake) (raw : Raw) : Prop where
  added : ∀ a ∈ raw.added, AddedSettled A intake a
  linetypes : ∀ op ∈ raw.setLinetype, SpeltSafely (knownLinetypes intake) (some op.value)
  children : ∀ b ∈ raw.blockDefs, ∀ c ∈ b.children.getD [], SpeltSafely (knownLinetypes intake) c.linetype

section

variable {B C D K L : Type} [LinearOrder L] {base : B → C → Prop} {key : C → K} {order : C → L} {as : List B}
  {bs : List C}

lemma Collected.again {base' : D → C → Prop} (h : Collected base key as bs) {f : C → D}
    (hb : ∀ a ∈ as, ∀ b, base a b → base' (f b) b) :
    Collected base' key ((sortOn order bs).map f) (sortOn order bs) := by
  refine ⟨?_, nodup_map_sortOn.mpr h.2⟩
  rw [forall₂_map_left_iff, forall₂_same]
  intro b hm
  obtain ⟨a, ha, hbs⟩ := h.exists_base (mem_sortOn.mp hm)
  exact hb a ha b hbs

lemma Collected.again_self {base' : C → C → Prop} (h : Collected base key as bs)
    (hb : ∀ a ∈ as, ∀ b, base a b → base' b b) : Collected base' key (sortOn order bs) (sortOn order bs) := by
  have ha : Collected base' key ((sortOn order bs).map id) (sortOn order bs) := h.again hb
  rwa [map_id] at ha

end

variable {A : Arith} {intake : Intake} {flags : Flags} {index : Index} {blockDefs ds : List BlockDef}
  {raw : Raw} {p : Parts} {n : ℕ}

section

def Parts.again (p : Parts) (A : Arith) : Parts where
  removed := sortOn id p.removed
  transforms := sortOn Transform.handle p.transforms
  setLayer := sortOn SetLayer.handle p.setLayer
  setPoints := sortOn SetPoints.handle p.setPoints
  setCircle := sortOn SetCircle.handle p.setCircle
  setArc := sortOn SetArc.handle p.setArc
  placed := sortAdded A p.placed
  styles := ((sortAdded A p.placed).map (styled p.styles)).map fun a => (some a.handle, a.style)
  inserts := p.inserts
  removedGroups := sortOn id p.removedGroups
  groups := sortOn Group.name p.groups
  setColor := sortByValue p.setColor
  setLinetype := sortByValue p.setLinetype
  setLineweight := sortByValue p.setLineweight

lemma members_canonical :
    (p.canonical A index blockDefs raw).blockDefs.flatMap members = blockDefs.flatMap members := by
  simp [canonical, flatMap_map]

lemma names_canonical : (p.canonical A index blockDefs raw).blockDefs.map name = blockDefs.map name := by
  simp [canonical]

lemma children_canonical : childrenOf (p.canonical A index blockDefs raw).blockDefs = childrenOf blockDefs := by
  simp [canonical, childrenOf, flatMap_map]

lemma handles_canonical :
    (p.canonical A index blockDefs raw).raw.added.map RawAdded.handle =
      (sortAdded A p.placed).map fun q => some q.handle := by
  simp [Canonical.raw, canonical, Added.raw, styled]

lemma sortOn_removedKinds {removed' removed : List String} (hp : removed'.Perm removed) (hn : removed.Nodup) :
    sortOn Prod.fst (removedKinds index removed') = sortOn Prod.fst (removedKinds index removed) := by
  refine sortOn_eq_of_perm (hp.filterMap _) ?_
  rw [removedKinds, map_filterMap]
  refine Nodup.filterMap ?_ (hp.nodup_iff.mpr hn)
  intro h h' x hx hx'
  simp only [Option.mem_def, Option.map_map, Option.map_eq_some_iff, comp_apply] at hx hx'
  obtain ⟨-, -, rfl⟩ := hx
  obtain ⟨-, -, heq⟩ := hx'
  exact heq.symm

lemma Collected.mem_handles {B C L : Type} [LinearOrder L] {base : B → C → Prop} {key : C → String}
    {order : C → L} {as : List B} {bs : List C} (h : Collected base key as bs) {f : B → String}
    (hf : ∀ a b, base a b → f a = key b) (x : String) : x ∈ (sortOn order bs).map key ↔ x ∈ as.map f := by
  rw [map_eq_of_forall₂ h.1 hf]
  exact ((sortOn_perm order bs).map key).mem_iff

abbrev Checks.result (_ : Checks A intake flags index blockDefs raw p) : Canonical :=
  p.canonical A index blockDefs raw

variable {b : RawBlockDef} {d : BlockDef}

lemma childrenFit_again {cs : Option (List RawChild)} {ds : Option (List Child)}
    (h : Option.Rel (Forall₂ (ChildFits A intake index)) cs ds) :
    Option.Rel (Forall₂ (ChildFits A intake index)) (ds.map (map Child.raw)) ds ↔
      ∀ c ∈ cs.getD [], SpeltSafely (knownLinetypes intake) c.linetype := by
  cases h with
  | none => exact iff_of_true .none (by simp)
  | some h =>
    rw [Option.map_some, Option.rel_some_some, forall₂_map_left_iff, forall₂_same, Option.getD_some]
    exact (forall_mem_iff_of_forall₂ h fun _ _ hf => hf.again.symm).symm

section

variable (h : Checks A intake flags index blockDefs raw p)

include h

lemma Checks.opCount_eq : opCount h.result.blockDefs h.result.raw = opCount blockDefs raw := by
  have hl : h.result.blockDefs.length = blockDefs.length := by
    simp [canonical]
  unfold opCount
  rw [children_canonical, hl]
  simp [Canonical.raw, canonical, sortAdded, sortByValue, h.removed.length_eq, h.placed.length_eq,
    h.transforms.length_eq, h.setLayer.length_eq, h.setPoints.length_eq, h.setCircle.length_eq,
    h.setArc.length_eq, h.setColor.length_eq, h.setLinetype.length_eq, h.setLineweight.length_eq,
    h.groups.length_eq, h.removedGroups.length_eq]

lemma Checks.styleOps_eq : h.result.raw.styleOps = raw.styleOps := by
  have hn : ∀ {V : Type} {as bs : List (StyleOp V)}, as.length = bs.length → (sortByValue bs = [] ↔ as = []) := by
    intro V as bs hl
    rw [← length_eq_zero_iff, ← length_eq_zero_iff, sortByValue, length_sortOn, hl]
  simp [Raw.styleOps, Canonical.raw, canonical, hn h.setColor.length_eq,
    hn h.setLinetype.length_eq, hn h.setLineweight.length_eq]

lemma Checks.handles_eq : raw.added.map RawAdded.handle = p.placed.map fun q => some q.handle :=
  Mutation.handles_eq h.placed.1

lemma Checks.of_lt (hn : n < p.placed.length) : (p.ordinals A raw).of n < p.placed.length :=
  ordinalOf_lt h.handles_eq h.placed.2 hn

lemma Checks.of_again (hn : n < p.placed.length) : ((p.again A).ordinals A h.result.raw).of n = n := by
  have hof : ((p.again A).ordinals A h.result.raw).of n =
      ordinalOf (sortAdded A p.placed) h.result.raw.added n := by
    simp [Ordinals.of, ordinals, again]
  rw [hof]
  apply ordinalOf_sorted handles_canonical (nodup_map_sortOn.mpr h.placed.2) sortAdded_sortAdded
  rwa [sortAdded, length_sortOn]

lemma Checks.nodup_handles : (h.result.added.map fun a => a.handle).Nodup := by
  have hm : h.result.added.map (fun a => a.handle) = (sortAdded A p.placed).map Placed.handle := by
    simp [canonical, styled]
  rw [hm]
  exact nodup_map_sortOn.mpr h.placed.2

lemma Checks.styled_again {q : Placed} (hq : q ∈ sortAdded A p.placed) :
    styled (p.again A).styles q = styled p.styles q := by
  have hn : ((p.again A).styles.map Prod.fst).Nodup := by
    have hm : (p.again A).styles.map Prod.fst = (sortAdded A p.placed).map fun q => some q.handle := by
      simp [again, styled]
    rw [hm]
    exact nodup_some_handles (nodup_map_sortOn.mpr h.placed.2)
  have hmem : (some q.handle, (styled p.styles q).style) ∈ (p.again A).styles :=
    mem_map.mpr ⟨styled p.styles q, mem_map_of_mem hq, rfl⟩
  rw [styled, lookup_of_mem hn hmem]
  rfl

section

variable (hi : ∀ b ∈ blockDefs, b.insert < p.placed.length)
include hi

lemma Checks.canonical_again : (p.again A).canonical A index h.result.blockDefs h.result.raw = h.result := by
  have hn : p.removed.Nodup := by simpa using h.removed.2
  have hbl : h.result.blockDefs.map (fun b =>
      { b with insert := ((p.again A).ordinals A h.result.raw).of b.insert }) =
        h.result.blockDefs := by
    refine (map_congr_left ?_).trans (map_id _)
    intro b hb
    obtain ⟨d, hd, rfl⟩ := mem_map.mp hb
    have hof := h.of_again (h.of_lt (hi d hd))
    simp [hof]
  have ha : (sortAdded A (sortAdded A p.placed)).map (styled (p.again A).styles) =
      (sortAdded A p.placed).map (styled p.styles) := by
    rw [sortAdded_sortAdded]
    exact map_congr_left fun q hq => h.styled_again hq
  unfold Checks.result canonical at hbl ⊢
  simp only [hbl]
  simp only [again, sortByValue, sortOn_sortOn, sortOn_removedKinds (sortOn_perm id p.removed) hn,
    Canonical.mk.injEq,
    true_and, and_true]
  exact ha

lemma Checks.again (had : ∀ a ∈ raw.added, AddedSettled A intake a)
    (hl : ∀ op ∈ raw.setLinetype, SpeltSafely (knownLinetypes intake) (some op.value)) :
    Checks A intake flags index h.result.blockDefs h.result.raw (p.again A) := by
  have ht : (p.targets index blockDefs).Same ((p.again A).targets index h.result.blockDefs) :=
    ⟨rfl, by simp [Parts.targets, Parts.again], by simp [Parts.targets, members_canonical],
      by simp [Parts.targets, Parts.again]⟩
  have hrm : ∀ x, x ∈ p.removed ↔ x ∈ (p.again A).removed := by simp [Parts.again]
  have hb : ∀ a ∈ h.result.added, Becomes ⟨A, intake, flags, index, blockDefs.map name⟩ a.raw a := by
    intro a ha
    obtain ⟨r, hr, hr'⟩ := h.mem_added ha
    exact hr'.again.mpr (had r hr)
  constructor
  · rw [h.opCount_eq]
    exact h.nonempty
  · rw [h.opCount_eq]
    exact h.few
  · exact h.removed.again_self fun r _ x hx => hx.again
  · intro hm
    apply h.movable
    refine ⟨?_, hm.2⟩
    intro hnil
    have hlen := h.transforms.length_eq
    rw [hnil, length_nil] at hlen
    apply hm.1
    simp [Canonical.raw, canonical, eq_nil_of_length_eq_zero hlen.symm]
  · exact h.transforms.again fun r _ x hx => hx.again hrm
  · exact h.setLayer.again_self fun r _ x hx => hx.again ht
  · refine h.setPoints.again fun r _ x hx => ?_
    obtain ⟨e, hx⟩ := hx
    exact ⟨e, hx.again ht⟩
  · refine h.setCircle.again fun r _ x hx => ?_
    obtain ⟨⟨e, hx⟩, he⟩ := hx
    exact ⟨⟨e, hx.again ht⟩, by simpa [Parts.again] using he⟩
  · refine h.setArc.again fun r _ x hx => ?_
    obtain ⟨⟨e, hx⟩, he⟩ := hx
    exact ⟨⟨e, hx.again ht⟩, by simpa [Parts.again, Parts.edited] using he⟩
  · refine ⟨?_, nodup_map_sortOn.mpr h.placed.2⟩
    simp only [Canonical.raw, Parts.canonical, map_map, Parts.again]
    rw [forall₂_map_left_iff, forall₂_same]
    intro q hq
    exact (hb (styled p.styles q) (mem_map_of_mem hq)).1
  · have hp : setPointsTotal (p.again A).setPoints = setPointsTotal p.setPoints := ((sortOn_perm _ _).map _).sum_eq
    have hpl : placedTotal (p.again A).placed = placedTotal p.placed := ((sortOn_perm _ _).map _).sum_eq
    rw [hp, hpl, childPoints, children_canonical]
    exact h.points
  · rw [stylesOf_eq_ok]
    simp only [Canonical.raw, Parts.canonical, Parts.again]
    rw [forall₂_map_left_iff, forall₂_map_right_iff, forall₂_same]
    intro a ha
    exact ⟨rfl, (hb a ha).2⟩
  · rw [propertyInserts, h.styleOps_eq]
    exact h.inserts
  · refine h.removedGroups.again_self fun r _ x hx => ?_
    exact ⟨groupName_again hx.1, hx.2⟩
  · refine h.groups.again fun r _ g hg => ?_
    have hlen : (p.ordinals A raw).added.length = p.placed.length := length_sortOn
    apply hg.again hrm
    · simp [Parts.again]
    · exact sortAdded_sortAdded
    · intro n hn
      rw [hlen] at hn ⊢
      exact h.of_lt hn
    · intro n hn
      rw [hlen] at hn
      exact h.of_again hn
  · refine h.setColor.again_self fun r _ x hx => ?_
    exact (hx.again ht).mpr (colorValue_eq_ok.mpr ⟨rfl, (colorValue_eq_ok.mp hx.value).2⟩)
  · refine h.setLinetype.again_self fun r hr x hx => ?_
    apply (hx.again ht).mpr
    have hs := hl r hr
    rw [speltSafely_some (linetypeValue_eq_ok.mp hx.value).2] at hs
    exact (linetypeValue_again hx.value).mpr hs
  · refine h.setLineweight.again_self fun r _ x hx => ?_
    exact (hx.again ht).mpr (lineweightValue_eq_ok.mpr ⟨rfl, (lineweightValue_eq_ok.mp hx.value).2⟩)
  · rw [h.canonical_again hi]
    exact h.bytes

end

lemma Checks.memberFits_again {x : String} (hx : MemberFits intake index raw x) :
    MemberFits intake index h.result.raw x where
  safe := hx.safe
  entity := hx.entity
  alone := hx.alone
  unmoved := by
    have hm : x ∈ (sortOn Transform.handle p.transforms).map Transform.handle ↔
        x ∈ raw.transforms.map RawTransform.handle :=
      h.transforms.mem_handles (fun _ _ ht => ht.handle) x
    simp only [Canonical.raw, map_map]
    exact fun hin => hx.unmoved (hm.mp hin)
  unstyled := by
    simp only [Canonical.raw, canonical, sortByValue]
    rw [h.setColor.mem_handles fun _ _ ho => ho.handle, h.setLinetype.mem_handles fun _ _ ho => ho.handle,
      h.setLineweight.mem_handles fun _ _ ho => ho.handle]
    exact hx.unstyled
  removed := by
    have hm : x ∈ (sortOn id p.removed).map id ↔ x ∈ raw.removed.map id :=
      h.removed.mem_handles (fun _ _ hr => hr.1) x
    rw [map_id, map_id] at hm
    exact hm.mpr hx.removed

lemma Checks.countP_added (name : String) :
    h.result.raw.added.countP (isInsertOf name) = raw.added.countP (isInsertOf name) := by
  have hm : raw.added.map (isInsertOf name) =
      (p.placed.map (styled p.styles)).map fun a => isInsertOf name a.raw :=
    map_eq_of_forall₂ h.becomes fun _ _ hb => (hb.isInsertOf name).symm
  have hc : ∀ {T : Type} (q : T → Bool) (l : List T), l.countP q = (l.map q).countP id := by
    intro T q l
    rw [countP_map]
    rfl
  rw [hc, hc (isInsertOf name) raw.added, hm]
  apply Perm.countP_eq
  simp only [Canonical.raw, canonical, map_map]
  exact (sortOn_perm _ _).map _

section

variable (hd : Defines A intake index raw b d)
include hd

lemma Checks.insert_lt : d.insert < p.placed.length := by
  obtain ⟨-, -, r, hg, -⟩ := matchingInsert_eq_ok.mp hd.insert
  rw [← h.placed.length_eq]
  exact (List.getElem?_eq_some_iff.mp hg).1

lemma Checks.matchingInsert_again :
    matchingInsert h.result.raw.added
      (BlockDef.raw { d with insert := (p.ordinals A raw).of d.insert }) =
        .ok ((p.ordinals A raw).of d.insert) := by
  obtain ⟨-, hc, r, hg, hs⟩ := matchingInsert_eq_ok.mp hd.insert
  obtain ⟨base, hbs, hr⟩ := hd.base
  have hlt := h.insert_lt hd
  obtain ⟨hlt', heq⟩ := List.getElem?_eq_some_iff.mp hg
  have hp := getElem_ordinalOf (A := A) h.handles_eq h.placed.2 hlt
  have hb := h.becomes.get hlt' (by rwa [length_map])
  simp only [get_eq_getElem, getElem_map] at hb hp
  rw [heq] at hb
  rw [matchingInsert_eq_ok]
  refine ⟨rfl, ?_, (styled p.styles (p.placed.get ⟨d.insert, hlt⟩)).raw, ?_, ?_⟩
  · rw [h.countP_added]
    have hn : b.name = d.name := hd.name
    simpa [BlockDef.raw, ← hn] using hc
  · have hsr : (sortAdded A p.placed)[(p.ordinals A raw).of d.insert]? = some (p.placed.get ⟨d.insert, hlt⟩) := hp
    simp only [Canonical.raw, canonical, getElem?_map, hsr]
    rfl
  · have ha := hb.standsFor hs hbs ((p.ordinals A raw).of d.insert)
    rw [hr] at ha
    exact
      { kind := ha.kind
        name := ha.name.trans (congrArg some hd.name)
        layer := ha.layer
        pt := ha.pt
        rot := ha.rot
        scale := ha.scale }

lemma Checks.defines_again :
    Defines A intake index h.result.raw
      (BlockDef.raw { d with insert := (p.ordinals A raw).of d.insert })
      { d with insert := (p.ordinals A raw).of d.insert } ↔
        ∀ c ∈ b.children.getD [], SpeltSafely (knownLinetypes intake) c.linetype := by
  rw [← childrenFit_again hd.children]
  constructor
  · exact fun ha => ha.children
  intro hc
  obtain ⟨base, hb, hr⟩ := hd.base
  exact
    { name := rfl
      named := hd.named
      fresh := hd.fresh
      length := rfl
      base := by
        refine ⟨d.base, point3_raw.mpr ⟨?_, rfl⟩, ?_⟩
        · rw [← hr]
          exact (bounded_of_point3 hb).rounded 3
        · rw [← hr, Pt.rounded_rounded]
      size := hd.size
      children := hc
      members := rfl
      fits := fun x hx => h.memberFits_again (hd.fits x hx)
      distinct := hd.distinct
      order := rfl
      ordered := hd.ordered
      insert := h.matchingInsert_again hd }

end

end

lemma Checks.definitions_again (h : Checks A intake flags index (sortOn BlockDef.name ds) raw p)
    (hds : Definitions A intake index raw ds) :
    Definitions A intake index h.result.raw
      h.result.blockDefs ↔
        ∀ b ∈ raw.blockDefs, ∀ c ∈ b.children.getD [], SpeltSafely (knownLinetypes intake) c.linetype := by
  rw [forall_mem_iff_of_forall₂ hds.defines fun b d hd => (h.defines_again hd).symm]
  have hl : Forall₂ (Defines A intake index h.result.raw)
      h.result.raw.blockDefs
      h.result.blockDefs ↔
        ∀ d ∈ ds, Defines A intake index h.result.raw
          (BlockDef.raw { d with insert := (p.ordinals A raw).of d.insert })
          { d with insert := (p.ordinals A raw).of d.insert } := by
    simp [Canonical.raw, canonical]
  rw [← hl]
  constructor
  · exact fun ha => ha.defines
  intro hdf
  refine ⟨hdf, ?_, ?_⟩
  · have hn : h.result.blockDefs.map (fun d => foldText d.name) =
        (sortOn name ds).map fun d => foldText d.name := by
      simp [canonical]
    rw [hn]
    exact nodup_map_sortOn.mpr hds.names
  · rw [members_canonical]
    exact (((sortOn_perm name ds).flatMap_right _).map _).nodup_iff.mpr hds.members

section

variable (h : Checks A intake flags index (sortOn name ds) raw p)
include h

lemma Checks.sortOn_result :
    sortOn name h.result.blockDefs =
      h.result.blockDefs :=
  sortOn_of_map_eq names_canonical

lemma Checks.blockDefs_nil (hds : Definitions A intake index raw ds) :
    h.result.raw.blockDefs = [] ↔ raw.blockDefs = [] := by
  rw [← length_eq_zero_iff, ← length_eq_zero_iff, hds.defines.length_eq]
  simp [Canonical.raw, canonical]

end

end

variable {p' : Parts} {ds' : List BlockDef}

section

variable (h : Checks A intake flags index (sortOn name ds) raw p)
include h

lemma Checks.blockDefs_of_again (hds' : Definitions A intake index h.result.raw ds')
    (hc : p'.canonical A index (sortOn name ds') h.result.raw = h.result) :
    sortOn name ds' = ds' ∧ ds'.map name = (sortOn name ds).map name ∧
      ds'.map children = (sortOn name ds).map children := by
  have hn : ds'.map BlockDef.name = (sortOn BlockDef.name ds).map BlockDef.name := by
    rw [← map_eq_of_forall₂ (f := RawBlockDef.name) hds'.defines fun _ _ hd => hd.name]
    simp [Canonical.raw, canonical, BlockDef.raw]
  have hs := sortOn_of_map_eq hn
  refine ⟨hs, hn, ?_⟩
  have hch := congrArg (fun c => c.blockDefs.map children) hc
  simpa [canonical, hs, comp_def] using hch

lemma Checks.children_of_again (hds : Definitions A intake index raw ds)
    (hds' : Definitions A intake index h.result.raw ds')
    (hc : p'.canonical A index (sortOn name ds') h.result.raw = h.result) :
    ∀ b ∈ raw.blockDefs, ∀ c ∈ b.children.getD [], SpeltSafely (knownLinetypes intake) c.linetype := by
  obtain ⟨-, -, hch⟩ := h.blockDefs_of_again hds' hc
  have hr : Forall₂ (Option.Rel (Forall₂ (ChildFits A intake index)))
      (h.result.raw.blockDefs.map RawBlockDef.children)
      (ds'.map children) := by
    rw [forall₂_map_left_iff, forall₂_map_right_iff]
    exact hds'.defines.imp fun _ _ hd => hd.children
  rw [hch] at hr
  simp only [Canonical.raw, canonical, forall₂_map_left_iff, forall₂_map_right_iff, forall₂_same, mem_sortOn] at hr
  rw [forall_mem_iff_of_forall₂ hds.defines fun b d hd => (childrenFit_again hd.children).symm]
  exact hr

end

section

variable (h : Checks A intake flags index blockDefs raw p) {blockDefs' : List BlockDef}
include h

lemma Checks.linetypes_of_again (h' : Checks A intake flags index blockDefs' h.result.raw p')
    (hc : p'.canonical A index blockDefs' h.result.raw = h.result) :
    ∀ op ∈ raw.setLinetype, SpeltSafely (knownLinetypes intake) (some op.value) := by
  have hk : p'.setLinetype = sortByValue p.setLinetype := by
    have hs : sortByValue p'.setLinetype = sortByValue p.setLinetype := congrArg Canonical.setLinetype hc
    rw [← hs, sortByValue]
    symm
    apply sortOn_of_map_eq (m := p.setLinetype)
    exact (map_eq_of_forall₂ h'.setLinetype.1 fun _ _ ho => congrArg hexValue ho.handle).symm
  have hall := h'.setLinetype.1
  rw [hk] at hall
  have hsf : ∀ op ∈ p.setLinetype, safeName op.value := by
    intro op hop
    have ha := (forall₂_same.mp hall) op (mem_sortOn.mpr hop)
    exact (linetypeValue_eq_ok.mp ha.value).1
  rw [forall_mem_iff_of_forall₂ h.setLinetype.1 fun r op ho =>
    speltSafely_some (linetypeValue_eq_ok.mp ho.value).2]
  exact hsf

lemma Checks.added_of_again (h' : Checks A intake flags index blockDefs' h.result.raw p')
    (hn : blockDefs'.map name = blockDefs.map name)
    (hc : p'.canonical A index blockDefs' h.result.raw = h.result) : ∀ a ∈ raw.added, AddedSettled A intake a := by
  rw [forall_mem_iff_of_forall₂ h.becomes fun r a hb => hb.again.symm]
  intro a ha
  have hm : a ∈ h.result.added := by
    obtain ⟨q, hq, rfl⟩ := mem_map.mp ha
    exact mem_map_of_mem (mem_sortOn.mpr hq)
  obtain ⟨i, hi, rfl⟩ := mem_iff_getElem.mp hm
  have hi' : i < h.result.raw.added.length := by
    simpa [Canonical.raw] using hi
  have hi'' : i < (p'.placed.map (styled p'.styles)).length := by rwa [← h'.becomes.length_eq]
  have hbc := h'.becomes.get hi' hi''
  rw [hn] at hbc
  have hbk : (p'.placed.map (styled p'.styles)).get ⟨i, hi''⟩ ∈
      h.result.added := by
    obtain ⟨q, hq, hg⟩ := mem_map.mp (get_mem (p'.placed.map (styled p'.styles)) ⟨i, hi''⟩)
    rw [← hg, ← hc]
    exact mem_map_of_mem (mem_sortOn.mpr hq)
  have hr : h.result.raw.added.get ⟨i, hi'⟩ = (h.result.added.get ⟨i, hi⟩).raw := by
    simp [Canonical.raw]
  rw [hr] at hbc
  obtain ⟨⟨kind, layer, hadd⟩, -⟩ := id hbc
  have hs := inj_on_of_nodup_map h.nodup_handles hbk (get_mem _ ⟨i, hi⟩) (Option.some.inj hadd.handle).symm
  rw [hs] at hbc
  exact hbc

end

theorem validateMutations_again_iff {c : Canonical} (h : validateMutations A intake flags raw = .ok c) :
    validateMutations A intake flags c.raw = .ok c ↔ raw.Settled A intake := by
  obtain ⟨index, ds, p, hi, hds, hcat, hp, rfl⟩ := validateMutations_eq_ok.mp h
  constructor
  · intro ha
    obtain ⟨index', ds', p', hi', hds', -, hp', hc⟩ := validateMutations_eq_ok.mp ha
    obtain rfl : index' = index := Except.ok.inj (hi'.symm.trans hi)
    obtain ⟨hsr, hn, -⟩ := hp.blockDefs_of_again hds' hc
    refine ⟨hp.added_of_again hp' ?_ hc, hp.linetypes_of_again hp' hc, hp.children_of_again hds hds' hc⟩
    rw [hsr, hn]
  · intro hs
    have hin : ∀ b ∈ sortOn name ds, b.insert < p.placed.length := by
      intro d hd
      obtain ⟨b, -, hb⟩ := hds.exists_raw (mem_sortOn.mp hd)
      exact hp.insert_lt hb
    refine validateMutations_eq_ok.mpr ⟨index, hp.result.blockDefs,
      p.again A, hi, (hp.definitions_again hds).mpr hs.children, ?_, ?_, ?_⟩
    · rw [hp.blockDefs_nil hds]
      exact hcat
    · rw [hp.sortOn_result]
      exact hp.again hin hs.added hs.linetypes
    · rw [hp.sortOn_result]
      exact hp.canonical_again hin

def exactRoot (q : ℚ) : ℚ := Nat.sqrt q.num.toNat / Nat.sqrt q.den

def exactTowards (x y : ℚ) : ℚ × ℚ :=
  let r := exactRoot (x ^ 2 + y ^ 2)
  if (x / r) ^ 2 + (y / r) ^ 2 = 1 then (x / r, y / r) else (1, 0)

def exactArith : Arith where
  sqrt := exactRoot
  turned d := if d = 90 then (0, 1) else (1, 0)
  towards := exactTowards
  text _ := ""
  json := Placed.handle
  bytes _ := 0
  turned_unit d := by split <;> norm_num
  towards_unit x y := by
    unfold exactTowards
    dsimp only
    split
    · assumption
    · norm_num

def Intake.blank : Intake where
  arrays _ := none
  layers := none
  blocks := none
  blocksCapped := none
  memberEvidenceCovered := false
  parseErrors := []
  groups := none
  groupMemberships := []
  properties := none
  dimstyles := none
  mlstyles := none
  blockMembers := .empty
  created := none

def alignedAdd (x y : ℚ) : Raw :=
  { Raw.empty with
    added := [{ RawAdded.blank with
      handle := some "new1", kind := some "DIMENSION", layer := some "0", dimtype := some "ALIGNED",
      def1 := some [0, 0, 0], def2 := some [3, 4, 0], dimline := some [x, y, 0],
      style := some "Standard" }] }

def alignedCanonical (x y : ℚ) : Canonical :=
  ⟨[], [], [], [], [], [],
    [⟨⟨"new1", "0", .aligned ⟨0, 0, 0⟩ ⟨3, 4, 0⟩ ⟨x, y, 0⟩ "Standard" 5⟩, Style.plain⟩], [], [], [], [],
    [], [], []⟩

theorem aligned_again_iff :
    validateMutations exactArith .blank .default (alignedAdd 3 4) = .ok (alignedCanonical 3 4) ∧
      (validateMutations exactArith .blank .default (alignedCanonical 3 4).raw =
          .ok (alignedCanonical 3 4) ↔ (alignedAdd 3 4).Settled exactArith .blank) := by
  have h : validateMutations exactArith .blank .default (alignedAdd 3 4) =
      .ok (alignedCanonical 3 4) := by decide +kernel
  exact ⟨h, validateMutations_again_iff h⟩

theorem aligned_moves_again :
    validateMutations exactArith .blank .default (alignedAdd 3.0006 4.0006) =
        .ok (alignedCanonical 3.001 4.001) ∧
      validateMutations exactArith .blank .default (alignedCanonical 3.001 4.001).raw =
        .ok (alignedCanonical 3 4) ∧
      alignedCanonical 3 4 ≠ alignedCanonical 3.001 4.001 := by
  decide +kernel

end LeafWeb.Mutation
