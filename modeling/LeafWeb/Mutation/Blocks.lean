import LeafWeb.Mutation.Parts

namespace LeafWeb.Mutation

open Lib List BlockDef

variable {A : Arith} {intake : Intake} {index : Index} {c : Canonical} {raw r : RawAdded} {kind : AddKind}
  {known hs used vs : List String} {flags : Flags} {s : Setting}

def lone (a : Added) : Canonical := ⟨[], [], [], [], [], [], [a], [], [], [], [], [], [], []⟩

lemma collected_nil {B C K : Type} {base : B → C → Prop} {key : C → K} {cs : List C} :
    Collected base key [] cs ↔ cs = [] := by
  rw [Collected, forall₂_nil_left_iff]
  constructor
  · exact fun h => h.1
  · rintro rfl
    exact ⟨rfl, nodup_nil⟩

lemma stylesOf_eq_ok {styles : List (Option String × Style)} {raw : List RawAdded} :
    stylesOf known raw = .ok styles ↔ Forall₂
    (fun r s => r.handle = s.1 ∧ styleOf known r = .ok s.2) raw styles := by
  apply gather_each
  intro out r s
  simp only [bind_eq_ok, pure_eq_ok]
  constructor
  · rintro ⟨style, hs, rfl⟩
    exact ⟨rfl, hs⟩
  · rintro ⟨hh, hs⟩
    exact ⟨s.2, hs, by rw [hh]⟩

lemma validateWith_lone :
    validateWith A intake flags index [] { Raw.empty with added := [r] } = .ok c ↔
      ∃ a : Added, (∃ kind layer, Adds ⟨A, intake, flags, index, []⟩ r a.toPlaced kind layer) ∧
        a.shape.points ≤ maxPoints ∧ styleOf (knownLinetypes intake) r = .ok a.style ∧
        ¬maxPlanBytes < A.bytes (lone a) ∧ lone a = c := by
  rw [validateWith_eq_ok]
  constructor
  · rintro ⟨⟨removed, transforms, setLayer, setPoints, setCircle, setArc, placed, styles, inserts,
      removedGroups, groups, setColor, setLinetype, setLineweight⟩, h, rfl⟩
    obtain ⟨-, -, hrm, -, ht, hsl, hsp, hsc, hse, hpl, hp, hsy, -, hr, hg, hsr, hst, hs, hb⟩ := h
    obtain rfl := collected_nil.mp hrm
    obtain rfl := collected_nil.mp ht
    obtain rfl := collected_nil.mp hsl
    obtain rfl := collected_nil.mp hsp
    obtain rfl := collected_nil.mp hsc
    obtain rfl := collected_nil.mp hse
    obtain rfl := collected_nil.mp hr
    obtain rfl := collected_nil.mp hg
    obtain rfl := collected_nil.mp hsr
    obtain rfl := collected_nil.mp hst
    obtain rfl := collected_nil.mp hs
    obtain ⟨p, ps, ha, hps, rfl⟩ := forall₂_cons_left_iff.mp hpl.1
    obtain rfl := forall₂_nil_left_iff.mp hps
    obtain ⟨⟨name, style⟩, ss, ⟨rfl, hstyle⟩, hss, rfl⟩ := forall₂_cons_left_iff.mp (stylesOf_eq_ok.mp hsy)
    obtain rfl := forall₂_nil_left_iff.mp hss
    obtain ⟨kind, layer, hadd⟩ := ha
    have hl : (Parts.canonical ⟨[], [], [], [], [], [], [p], [(r.handle, style)], inserts, [], [], [],
        [], []⟩ A index [] { Raw.empty with added := [r] }) = lone ⟨p, style⟩ := by
      simp [Parts.canonical, lone, sortOn, sortByValue, sortAdded, styled, removedKinds, hadd.handle]
    rw [hl] at hb ⊢
    refine ⟨⟨p, style⟩, ⟨kind, layer, hadd⟩, ?_, hstyle, hb, rfl⟩
    simpa [childPoints, childrenOf, setPointsTotal, placedTotal] using hp
  · rintro ⟨a, ⟨kind, layer, hadd⟩, hp, hstyle, hb, rfl⟩
    have hl : (Parts.canonical ⟨[], [], [], [], [], [], [a.toPlaced], [(r.handle, a.style)], [], [],
        [], [], [], []⟩ A index [] { Raw.empty with added := [r] }) = lone a := by
      simp [Parts.canonical, lone, sortOn, sortByValue, sortAdded, styled, removedKinds, hadd.handle]
    refine ⟨_, ?_, hl⟩
    exact
      { nonempty := by simp [opCount]
        few := by simp [opCount, Raw.empty, childrenOf, maxOperations]
        removed := collected_nil.mpr rfl
        movable := by simp [Raw.empty]
        transforms := collected_nil.mpr rfl
        setLayer := collected_nil.mpr rfl
        setPoints := collected_nil.mpr rfl
        setCircle := collected_nil.mpr rfl
        setArc := collected_nil.mpr rfl
        placed := ⟨.cons ⟨kind, layer, hadd⟩ .nil, by simp⟩
        points := by simpa [childPoints, childrenOf, setPointsTotal, placedTotal] using hp
        styles := stylesOf_eq_ok.mpr (.cons ⟨rfl, hstyle⟩ .nil)
        inserts := by simp [propertyInserts, Raw.styleOps, Raw.empty]
        removedGroups := collected_nil.mpr rfl
        groups := collected_nil.mpr rfl
        setColor := collected_nil.mpr rfl
        setLinetype := collected_nil.mpr rfl
        setLineweight := collected_nil.mpr rfl
        bytes := by rwa [hl] }

def Child.placed (c : Child) : Placed := ⟨"block-child", c.layer, c.shape⟩

def childSetting (A : Arith) (intake : Intake) (index : Index) : Setting := ⟨A, intake, .default, index, []⟩

structure ChildFits (A : Arith) (intake : Intake) (index : Index) (raw : RawChild) (c : Child) : Prop where
  anonymous : raw.handle = none
  kind : ∃ name ∈ addKinds, raw.kind = some name
  xdata : raw.xdata = none
  colours : ¬(raw.aci ≠ none ∧ raw.color ≠ none)
  adds : ∃ kind layer, Adds (childSetting A intake index) raw.addition c.placed kind layer
  points : c.shape.points ≤ maxPoints
  style : styleOf (knownLinetypes intake) raw.addition = .ok c.style
  bytes : ¬maxPlanBytes < A.bytes (lone ⟨c.placed, c.style⟩)
  planar : ∀ closed pts xdata, c.shape = .lwpolyline closed pts xdata →
    planarUp (if closed then worldToOcs A pts else worldToOcsAny A pts) = .ok ()

lemma Adds.shape_facts {p : Placed} {layer : String} (h : Adds s raw p kind layer) :
    (∀ closed pts xdata, p.shape = .lwpolyline closed pts xdata → xdata = raw.xdata) ∧
    (∀ a b, p.shape = .line a b → a ≠ b) ∧ (∀ c r, p.shape = .circle c r → ¬r ≤ 0) ∧
    (∀ c r a b, p.shape = .arc c r a b → ¬r ≤ 0 ∧ ¬noSweep a b) := by
  have hs := h.shape
  cases kind with
  | mleader =>
    obtain ⟨_, _, _, _, _, heq, -⟩ := mleaderShape_eq_ok.mp hs
    simp [heq]
  | insert =>
    obtain ⟨_, _, _, _, heq, -⟩ := insertShape_eq_ok.mp hs
    simp [heq]
  | dimension =>
    obtain ⟨_, _, _, _, _, _, _, -, hm, -, -, heq⟩ := dimensionShape_eq_ok.mp hs
    cases hm <;> simp [heq]
  | lwpolyline =>
    simp only [shapeOf, bind_eq_ok, lwpolylineShape_eq_ok] at hs
    obtain ⟨-, -, _, _, heq, -⟩ := hs
    simp [heq]
  | line =>
    simp only [shapeOf, bind_eq_ok, lineShape_eq_ok] at hs
    obtain ⟨-, -, _, _, heq, -, -, -, hne, -⟩ := hs
    simp [heq, hne]
  | circle =>
    simp only [shapeOf, bind_eq_ok, circleShape_eq_ok] at hs
    obtain ⟨-, -, _, _, heq, hr, -⟩ := hs
    have hp := hr.positive
    simpa [heq] using hp
  | arc =>
    simp only [shapeOf, bind_eq_ok, arcShape_eq_ok] at hs
    obtain ⟨-, -, _, _, _, _, heq, hr, -, -, hsw⟩ := hs
    refine ⟨by simp [heq], by simp [heq], by simp [heq], ?_⟩
    intro c r a b hab
    obtain ⟨rfl, rfl, rfl, rfl⟩ := Shape.arc.inj (heq.symm.trans hab)
    exact ⟨hr.positive, hsw⟩

lemma childOf_eq_ok {a : Added} {layer : String} (h : Adds s raw a.toPlaced kind layer) (hx : raw.xdata = none)
    {c : Child} :
    childOf A a = .ok c ↔
      (∀ closed pts xdata, a.shape = .lwpolyline closed pts xdata →
        planarUp (if closed then worldToOcs A pts else worldToOcsAny A pts) = .ok ()) ∧
          ⟨a.layer, a.shape, a.style⟩ = c := by
  obtain ⟨hpl, hl, hc, ha⟩ := h.shape_facts
  obtain ⟨⟨handle, onLayer, shape⟩, style⟩ := a
  cases shape with
  | lwpolyline closed pts xdata =>
    obtain rfl := (hpl _ _ _ rfl).trans hx
    simp only [childOf, bind_eq_ok, pure_eq_ok, Shape.lwpolyline.injEq]
    constructor
    · rintro ⟨⟨⟩, hp, rfl⟩
      refine ⟨?_, rfl⟩
      rintro _ _ _ ⟨rfl, rfl, -⟩
      exact hp
    · rintro ⟨hp, rfl⟩
      exact ⟨(), hp _ _ _ ⟨rfl, rfl, rfl⟩, rfl⟩
  | line p q =>
    simp only [childOf, bind_refuse, pure_eq_ok, hl p q rfl, reduceCtorEq, false_imp_iff,
      implies_true, not_false_eq_true]
  | circle center r =>
    simp only [childOf, bind_refuse, pure_eq_ok, hc center r rfl, reduceCtorEq, false_imp_iff,
      implies_true, not_false_eq_true]
  | arc center r start stop =>
    obtain ⟨hpos, hs⟩ := ha center r start stop rfl
    simp only [childOf, bind_refuse, pure_eq_ok, hpos, hs, reduceCtorEq, false_imp_iff,
      implies_true, not_false_eq_true, true_and]
  | _ =>
    simp [childOf]

lemma validateBlockChild_eq_ok {raw : RawChild} {c : Child} :
    validateBlockChild A intake index raw = .ok c ↔ ChildFits A intake index raw c := by
  simp only [validateBlockChild, bind_eq_ok, refuse_eq_ok, exists_const, demand_eq_ok, validateWith_lone, not_not]
  constructor
  · rintro ⟨han, hk, hx, hc, canonical, ⟨a, ⟨kind, layer, hadd⟩, hpn, hs, hb, rfl⟩, child, hch, hsh⟩
    obtain rfl : a = child := Option.some.inj hch
    obtain ⟨hpl, rfl⟩ := (childOf_eq_ok hadd hx).mp hsh
    have hp : a.toPlaced = ⟨"block-child", a.layer, a.shape⟩ := by
      obtain ⟨⟨handle, onLayer, shape⟩, style⟩ := a
      have hh : some "block-child" = some handle := hadd.handle
      rw [Option.some.inj hh]
    have ha : a = ⟨⟨"block-child", a.layer, a.shape⟩, a.style⟩ := by rw [← hp]
    rw [hp] at hadd
    rw [ha] at hb
    push Not at hk
    exact ⟨han, hk, hx, hc, ⟨kind, layer, hadd⟩, hpn, hs, hb, hpl⟩
  · intro h
    obtain ⟨kind, layer, hadd⟩ := h.adds
    obtain ⟨name, hn, hk⟩ := h.kind
    refine ⟨h.anonymous, fun hall => hall name hn hk, h.xdata, h.colours, _,
      ⟨⟨c.placed, c.style⟩, ⟨kind, layer, hadd⟩, h.points, h.style, h.bytes, rfl⟩, _, rfl, ?_⟩
    have hx : raw.addition.xdata = none := h.xdata
    exact (childOf_eq_ok hadd hx).mpr ⟨h.planar, rfl⟩

structure MemberFits (intake : Intake) (index : Index) (raw : Raw) (h : String) : Prop where
  safe : safeExisting h
  entity : ∃ kind entity, index.get h = some (kind, entity) ∧
    entity.kind.getD kind.name ∈ memberKinds ∧ inModelSpace entity ∧ entity.normal = none ∧
    ¬((entity.nrm.getD upNormal).length ≠ 3 ∨ ¬normalIsUp entity.nrm) ∧
    ¬(entity.bulges ≠ none ∨ entity.bulge.getD 0 ≠ 0) ∧ entity.width.getD 0 = 0 ∧
    ¬byBlock (((intake.properties.bind fun d => d.get h).or entity.properties).getD
      ⟨none, none, none, none⟩) ∧ ¬dimensionDepends intake h entity
  alone : ¬grouped intake h
  unmoved : h ∉ raw.transforms.map RawTransform.handle
  unstyled : ¬(h ∈ raw.setColor.map StyleOp.handle ∨ h ∈ raw.setLinetype.map StyleOp.handle ∨
    h ∈ raw.setLineweight.map StyleOp.handle)
  removed : h ∈ raw.removed

lemma gather_member {raw : Raw} :
    gather (memberStep intake index raw used) [] vs = .ok hs ↔
      vs = hs ∧ (∀ h ∈ hs, MemberFits intake index raw h ∧ upperText h ∉ used.map upperText) ∧
        (hs.map upperText).Nodup := by
  have hl : gather (memberStep intake index raw used) [] vs = .ok hs ↔
      Forall₂ (fun v h => v = h ∧ MemberFits intake index raw h ∧
        upperText h ∉ used.map upperText) vs hs ∧ (hs.map upperText).Nodup := by
    apply gather_keyed
    intro out v h
    simp only [memberStep, bind_eq_ok, existingHandle_eq_ok, refuse_eq_ok, exists_const, demand_eq_ok,
      Prod.exists, pure_eq_ok, not_not, not_or (p := upperText _ ∈ _)]
    constructor
    · rintro ⟨_, ⟨rfl, hsf⟩, ⟨ho, hu⟩, kind, entity, hg, hk, hsp, hn, hnrm, hb, hw, ha, hst, hd, hum, hun, hr, rfl⟩
      exact ⟨⟨rfl, ⟨hsf, ⟨kind, entity, hg, hk, hsp, hn, hnrm, hb, hw, hst, hd⟩, ha, hum, hun, hr⟩, hu⟩, ho⟩
    rintro ⟨⟨rfl, h, hu⟩, ho⟩
    obtain ⟨kind, entity, hg, hk, hsp, hn, hnrm, hb, hw, hst, hd⟩ := h.entity
    exact ⟨v, ⟨rfl, h.safe⟩, ⟨ho, hu⟩, kind, entity, hg, hk, hsp, hn, hnrm, hb,
      hw, h.alone, hst, hd, h.unmoved, h.unstyled, h.removed, rfl⟩
  rw [hl]
  constructor
  · rintro ⟨hall, hnd⟩
    obtain rfl : vs = hs := forall₂_eq_eq_eq ▸ hall.imp fun _ _ h => h.1
    exact ⟨rfl, fun h hh => ((forall₂_same.mp hall) h hh).2, hnd⟩
  · rintro ⟨rfl, hf, hnd⟩
    exact ⟨forall₂_same.mpr fun h hh => ⟨rfl, hf h hh⟩, hnd⟩

def DefinitionNamed (name : String) : Prop :=
  ¬(¬(1 ≤ name.length ∧ name.length ≤ 255) ∨ name.toList.head? = some '*' ∨
    ¬name.toList.all fun c => printable c && c ≠ '|')

def catalogue (intake : Intake) : List String :=
  (intake.blocks.elim [] fun d => d.rows).map fun row => foldText row.1

structure Defines (A : Arith) (intake : Intake) (index : Index) (raw : Raw) (b : RawBlockDef)
    (d : BlockDef) : Prop where
  name : b.name = d.name
  named : DefinitionNamed d.name
  fresh : foldText d.name ∉ catalogue intake
  length : b.base.length = 3
  base : ∃ p, point3 (some b.base) "" = .ok p ∧ p.rounded 3 = d.base
  size : 1 ≤ d.members.length + (d.children.getD []).length ∧ d.members.length + (d.children.getD []).length ≤ 60
  children : Option.Rel (Forall₂ (ChildFits A intake index)) b.children d.children
  members : b.members = d.members
  fits : ∀ h ∈ d.members, MemberFits intake index raw h
  distinct : (d.members.map upperText).Nodup
  order : b.order = d.order
  ordered : checkOrder d.members (d.children.getD []).length d.order = .ok ()
  insert : matchingInsert raw.added b = .ok d.insert

lemma gather_child {ds : List Child} {cs : List RawChild} :
    gather (fun _ c => validateBlockChild A intake index c) [] cs = .ok ds ↔
      Forall₂ (ChildFits A intake index) cs ds := by
  apply gather_each
  intro out c d
  exact validateBlockChild_eq_ok

variable {raw : Raw} {d : BlockDef} {out ds : List BlockDef}

lemma blockDefStep_eq_ok {b : RawBlockDef} :
    blockDefStep A intake index raw out b = .ok d ↔
      Defines A intake index raw b d ∧ foldText d.name ∉ out.map (fun o => foldText o.name) ∧
        ∀ h ∈ d.members, upperText h ∉ (out.flatMap members).map upperText := by
  simp only [blockDefStep, definitionName, bind_eq_ok, refuse_eq_ok, exists_const, gather_child,
    gather_member, pure_eq_ok, not_not, mem_append, not_or (p := foldText _ ∈ _)]
  constructor
  · rintro ⟨⟨hn, hfr, hout⟩, hl, base, hb, hs, children, hc, members, ⟨rfl, hf, hd⟩, ⟨⟩, ho, insert, hi, rfl⟩
    obtain ⟨hrel, hg⟩ := rel_of_getD hc
    refine ⟨⟨rfl, hn, hfr, hl, ⟨base, (point3_field _ _).mp hb, rfl⟩, ?_, hrel, rfl,
      fun h hh => (hf h hh).1, hd, rfl, ?_, hi⟩, hout, fun h hh => (hf h hh).2⟩
    · rwa [hg, ← hc.length_eq]
    · rwa [hg]
  · rintro ⟨h, hout, hu⟩
    obtain ⟨base, hb, hr⟩ := h.base
    obtain ⟨hc, hmap⟩ := getD_of_rel h.children
    obtain ⟨name, dbase, members, insert, children, order⟩ := d
    obtain rfl := h.name
    obtain rfl := h.members
    obtain rfl := h.order
    refine ⟨⟨h.named, h.fresh, hout⟩, h.length, base, (point3_field _ _).mp hb, ?_, _, hc,
      b.members, ⟨rfl, fun m hm => ⟨h.fits m hm, hu m hm⟩, h.distinct⟩, (), h.ordered, insert,
      h.insert, ?_⟩
    · rw [hc.length_eq]
      exact h.size
    · rw [hmap, hr]

lemma gather_blockDef {bs : List RawBlockDef} :
    gather (blockDefStep A intake index raw) [] bs = .ok ds ↔
      Forall₂ (Defines A intake index raw) bs ds ∧ (ds.map fun d => foldText d.name).Nodup ∧
        ((ds.flatMap members).map upperText).Nodup := by
  apply gather_nil fun ds => (ds.map fun d => foldText d.name).Nodup ∧
    ((ds.flatMap members).map upperText).Nodup
  · rintro out b d ⟨hn, hmb⟩
    rw [blockDefStep_eq_ok]
    refine and_congr_right fun h => ?_
    rw [nodup_map_append, and_iff_right hn, flatMap_append, map_append, nodup_append]
    refine and_congr_right fun _ => ?_
    have hd := h.distinct
    constructor
    · intro hu
      refine ⟨hmb, by simpa using hd, ?_⟩
      rintro x hx y hy rfl
      obtain ⟨m, hm, rfl⟩ := mem_map.mp hy
      exact hu m (by simpa using hm) hx
    · rintro ⟨-, -, hds⟩ m hm hmem
      exact hds _ hmem _ (mem_map_of_mem (by simpa using hm)) rfl
  · rintro out d ⟨hn, hmb⟩
    rw [flatMap_append, map_append, nodup_append] at hmb
    exact ⟨((nodup_map_append _ out d).mp hn).1, hmb.1⟩
  · exact ⟨nodup_nil, nodup_nil⟩

structure Definitions (A : Arith) (intake : Intake) (index : Index) (raw : Raw) (ds : List BlockDef) : Prop where
  defines : Forall₂ (Defines A intake index raw) raw.blockDefs ds
  names : (ds.map fun d => foldText d.name).Nodup
  members : ((ds.flatMap members).map upperText).Nodup

lemma Definitions.exists_raw (h : Definitions A intake index raw ds) (hd : d ∈ ds) :
    ∃ b ∈ raw.blockDefs, Defines A intake index raw b d := by
  have hc : Collected (Defines A intake index raw) (fun d => foldText d.name) raw.blockDefs ds :=
    ⟨h.defines, h.names⟩
  exact hc.exists_base hd

def Catalogued (intake : Intake) : Prop :=
  ¬(intake.memberEvidenceCovered = false ∨ intake.parseErrors.any (startsWithAny ["BM:", "MEC:"]) = true) ∧
  ¬(intake.blocks.elim [] fun d => d.rows).length <
    intake.blocksCapped.getD (intake.blocks.elim [] fun d => d.rows).length

lemma validateBlockDefs_eq_ok :
    validateBlockDefs A intake index raw = .ok ds ↔
      ∃ ds', Definitions A intake index raw ds' ∧ (raw.blockDefs = [] ∨ Catalogued intake) ∧
        sortOn name ds' = ds := by
  unfold validateBlockDefs
  by_cases hr : raw.blockDefs = []
  · rw [if_pos hr]
    constructor
    · intro h
      obtain rfl := pure_eq_ok.mp h
      refine ⟨[], ⟨?_, nodup_nil, nodup_nil⟩, .inl hr, by simp [sortOn]⟩
      rw [hr]
      exact .nil
    · rintro ⟨ds', h, -, rfl⟩
      have hnil := h.defines
      rw [hr, forall₂_nil_left_iff] at hnil
      rw [hnil]
      simp [sortOn]
  · rw [if_neg hr]
    simp only [bind_eq_ok, refuse_eq_ok, exists_const, gather_blockDef, pure_eq_ok, hr, false_or]
    constructor
    · rintro ⟨hc, hl, ds', ⟨hd, hn, hm⟩, rfl⟩
      exact ⟨ds', ⟨hd, hn, hm⟩, ⟨hc, hl⟩, rfl⟩
    · rintro ⟨ds', ⟨hd, hn, hm⟩, ⟨hc, hl⟩, rfl⟩
      exact ⟨hc, hl, ds', ⟨hd, hn, hm⟩, rfl⟩

lemma validateMutations_eq_ok :
    validateMutations A intake flags raw = .ok c ↔
      ∃ index ds p, indexIntake intake = .ok index ∧ Definitions A intake index raw ds ∧
        (raw.blockDefs = [] ∨ Catalogued intake) ∧
        Checks A intake flags index (sortOn name ds) raw p ∧
        p.canonical A index (sortOn name ds) raw = c := by
  simp only [validateMutations, bind_eq_ok, validateBlockDefs_eq_ok, validateWith_eq_ok]
  constructor
  · rintro ⟨index, hi, _, ⟨ds, hds, hcat, rfl⟩, p, hp, hc⟩
    exact ⟨index, ds, p, hi, hds, hcat, hp, hc⟩
  · rintro ⟨index, ds, p, hi, hds, hcat, hp, hc⟩
    exact ⟨index, hi, _, ⟨ds, hds, hcat, rfl⟩, p, hp, hc⟩

end LeafWeb.Mutation
