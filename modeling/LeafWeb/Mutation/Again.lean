import LeafWeb.Mutation.Blocks
import LeafWeb.Mutation.Settled

namespace LeafWeb.Mutation

open Lib List Shape RawAdded

variable {index : Index} {h : String} {A : Arith} {intake : Intake} {flags : Flags} {t t' : Targets}

structure Targets.Same (t t' : Targets) : Prop where
  index : t.index = t'.index
  removed : ∀ h, h ∈ t.removed ↔ h ∈ t'.removed
  consumed : ∀ h, h ∈ t.consumed ↔ h ∈ t'.consumed
  transformed : ∀ h, h ∈ t.transformed ↔ h ∈ t'.transformed

variable {e : Entity} {removed removed' removedGroups removedGroups' : List String} {o o' : Ordinals}

lemma OnTarget.same {kinds : List Kind} (ht : t.Same t') (htr : OnTarget t kinds h e) : OnTarget t' kinds h e where
  safe := htr.safe
  found := by
    rw [← ht.index]
    exact htr.found
  free := by
    rw [← ht.removed, ← ht.consumed]
    exact htr.free

lemma Removes.again {raw : String} (hr : Removes index raw h) : Removes index h h := ⟨rfl, hr.2⟩

lemma Transforms.again {op : Transform} {raw : RawTransform} (h : Transforms flags index removed raw op)
    (hr : ∀ h, h ∈ removed ↔ h ∈ removed') : Transforms flags index removed' op.raw op where
  handle := rfl
  safe := h.safe
  kind := h.kind
  kept := by
    rw [← hr]
    exact h.kept
  dx := rfl
  dx_le := h.dx_le
  dy := rfl
  dy_le := h.dy_le
  rotation := rfl
  rotation_le := h.rotation_le
  moves := h.moves

lemma SetsLayer.again {op raw : SetLayer} (h : SetsLayer flags t raw op) (ht : t.Same t') :
    SetsLayer flags t' op op := by
  obtain ⟨-, hs, e, htr, hm⟩ := h
  exact ⟨rfl, hs, e, htr.same ht, hm⟩

lemma SetsPoints.again {op : SetPoints} {raw : RawSetPoints} (h : SetsPoints A flags t raw op e)
    (ht : t.Same t') : SetsPoints A flags t' op.raw op e where
  handle := rfl
  target := h.target.same ht
  still := by
    rw [← ht.transformed]
    exact h.still
  closed := rfl
  pts := (points_raw op.pts).mpr ⟨length_of_points h.pts, bounded_of_points h.pts, rfl⟩
  planar := by
    rw [← ht.consumed]
    exact h.planar
  moves := h.moves

lemma SetsCircle.again {op : SetCircle} {raw : RawSetCircle} (h : SetsCircle flags t raw op e)
    (ht : t.Same t') : SetsCircle flags t' op.raw op e where
  handle := rfl
  target := h.target.same ht
  up := h.up
  centre := point3_raw.mpr ⟨bounded_of_point3 h.centre, rfl⟩
  radius := rfl
  radius_le := h.radius_le
  positive := h.positive
  moves := h.moves

lemma SetsArc.again {op : SetArc} {raw : RawSetArc} (h : SetsArc flags t raw op e)
    (ht : t.Same t') : SetsArc flags t' op.raw op e where
  handle := rfl
  target := h.target.same ht
  up := h.up
  centre := point3_raw.mpr ⟨bounded_of_point3 h.centre, rfl⟩
  radius := rfl
  radius_le := h.radius_le
  positive := h.positive
  start := rfl
  start_le := h.start_le
  stop := rfl
  stop_le := h.stop_le
  sweep := h.sweep
  moves := h.moves

lemma SetsStyle.again {inserts : List Entity} {V : Type} {rule : StyleRule V}
    {raw op : StyleOp V} (h : SetsStyle flags intake t inserts rule raw op) (ht : t.Same t') :
    SetsStyle flags intake t' inserts rule op op ↔ rule.check op.value = .ok op.value := by
  constructor
  · exact fun ha => ha.value
  intro hv
  refine ⟨rfl, h.safe, ?_, ?_, ?_, hv, h.moves⟩
  · rw [← ht.removed]
    exact h.kept
  · rw [← ht.index]
    exact h.known
  · rw [← ht.index]
    exact h.kind

lemma Joins.again {m : Member} {raw : RawMember} (h : Joins intake removed o raw m)
    (hr : ∀ h, h ∈ removed ↔ h ∈ removed')
    (had : o'.added = o.added) (hof : ∀ n < o.added.length, o.of n < o.added.length)
    (hid : ∀ n < o.added.length, o'.of n = n) : Joins intake removed' o' m.raw m := by
  cases h with
  | handle h hs hl hm hk =>
    have ha := upperText_again_of_safeExisting hs
    have hk' : upperText h ∉ removed'.map upperText := by
      simp only [mem_map, ← hr] at hk ⊢
      exact hk
    have hj := Joins.handle (o := o') (upperText h) (safeExisting_upperText hs)
      (by rwa [ha]) (by rwa [ha]) (by rwa [ha])
    rwa [ha] at hj
  | add n hn hl =>
    have hlt : o.of n < o.added.length := hof n hn
    have hj : Joins intake removed' o' (.add (o.of n)) (.add (o'.of (o.of n))) :=
      .add (o.of n) (by rwa [had]) (by rwa [hid _ hlt, had])
    rwa [hid _ hlt] at hj

lemma Groups.again {g : Group} {raw : RawGroup} (h : Groups intake removed removedGroups o raw g)
    (hr : ∀ h, h ∈ removed ↔ h ∈ removed')
    (hg : ∀ n, n ∈ removedGroups ↔ n ∈ removedGroups') (ha : o'.added = o.added)
    (hof : ∀ n < o.added.length, o.of n < o.added.length)
    (hid : ∀ n < o.added.length, o'.of n = n) : Groups intake removed' removedGroups' o' g.raw g where
  named := groupName_again h.named
  free := by
    simpa [← hg] using h.free
  enough := by
    rw [Group.raw, length_map, ← h.joins.length_eq]
    exact h.enough
  joins := by
    rw [Group.raw, forall₂_map_left_iff, forall₂_same]
    intro m hm
    obtain ⟨i, hi, rfl⟩ := mem_iff_getElem.mp hm
    have hi' : i < raw.members.length := by rwa [h.joins.length_eq]
    exact (h.joins.get hi' hi).again hr ha hof hid
  nodup := h.nodup

variable {kind : AddKind} {layer : String} {raw : RawChild} {s : Setting} {name xdata : Option String}

lemma Adds.with_kind {p : Placed} {raw : RawAdded} (h : Adds s raw p kind layer)
    (hn : AddKind.ofName (name.getD "LWPOLYLINE") = some kind)
    (hf : FieldsFit { raw with kind := name }) : Adds s { raw with kind := name } p kind layer where
  fields := hf
  handle := h.handle
  safe := h.safe
  fresh := h.fresh
  ofKind := hn
  onLayer := h.onLayer
  named := h.named
  placed := h.placed
  shape := by
    have hs : shapeOf s 0 p.handle { raw with kind := name } kind = shapeOf s 0 p.handle raw kind := by
      cases kind <;> rfl
    exact h.shape

lemma fieldsFit_named {closed : Bool} {pts : List Pt} (a : Added) (h : a.shape = .lwpolyline closed pts xdata) :
    FieldsFit { a.raw with kind := some "LWPOLYLINE" } := by
  refine ⟨by simp, by simp, ?_⟩
  rintro ⟨field, hf, ha, hs⟩
  simp only [styleFields] at hs
  simp_all [Added.raw, Shape.raw, blank, mem_fields, entries, allowedFields, addedFields]

lemma Child.addition_raw (c : Child) :
    c.raw.addition = { Added.raw ⟨c.placed, c.style⟩ with kind := some c.shape.childKind } := by
  obtain ⟨layer, shape, ⟨color, linetype, lineweight⟩⟩ := c
  cases shape <;> simp [Child.raw, RawChild.addition, Added.raw, Child.placed, Shape.raw, blank]

variable {c : Child}

lemma ChildFits.basic (h : ChildFits A intake index raw c) :
    c.shape.addKind = .lwpolyline ∨ c.shape.addKind = .line ∨ c.shape.addKind = .circle ∨
      c.shape.addKind = .arc := by
  obtain ⟨kind, layer, ha⟩ := h.adds
  obtain ⟨name, hn, hk⟩ := h.kind
  have hs : c.shape.addKind = kind := kind_of_shapeOf ha.shape
  have hof : AddKind.ofName (raw.kind.getD "LWPOLYLINE") = some kind := ha.ofKind
  rw [hs]
  rw [hk, Option.getD_some] at hof
  simp only [addKinds, mem_cons, not_mem_nil, or_false] at hn
  rcases hn with rfl | rfl | rfl | rfl <;> simp [AddKind.ofName] at hof <;> simp [← hof]

lemma adds_childKind
    (hb : c.shape.addKind = .lwpolyline ∨ c.shape.addKind = .line ∨ c.shape.addKind = .circle ∨
      c.shape.addKind = .arc) :
    Adds s c.raw.addition c.placed kind layer ↔ Adds s (Added.raw ⟨c.placed, c.style⟩) c.placed kind layer := by
  rw [c.addition_raw]
  cases hs : c.shape with
  | lwpolyline closed pts xdata =>
    constructor
    · intro h
      have hk : kind = .lwpolyline := by simpa [AddKind.ofName, childKind] using h.ofKind.symm
      have hr : Added.raw ⟨c.placed, c.style⟩ =
          { { Added.raw ⟨c.placed, c.style⟩ with kind := some (lwpolyline closed pts xdata).childKind }
            with kind := none } := by
        simp [Added.raw, Child.placed, hs, raw, blank]
      rw [hr]
      apply h.with_kind
      · rw [hk]
        decide
      rw [← hr]
      apply fieldsFit_raw
      simp [Child.placed, hs, raw, blank]
    · intro h
      apply h.with_kind
      · have hof := h.ofKind
        simpa [Added.raw, Child.placed, hs, raw, blank, childKind] using hof
      · exact fieldsFit_named _ (by simpa [Child.placed] using hs)
  | line | circle | arc => simp [Added.raw, Child.placed, hs, raw, childKind]
  | _ => simp [hs, addKind] at hb

lemma ChildFits.again (h : ChildFits A intake index raw c) :
    ChildFits A intake index c.raw c ↔ SpeltSafely (knownLinetypes intake) raw.linetype := by
  obtain ⟨kind, layer, hadd⟩ := h.adds
  have hbs := h.basic
  have hst := adds_again hadd h.style
  have hl : AddedSettled (childSetting A intake index).arith (childSetting A intake index).intake
      raw.addition ↔ SpeltSafely (knownLinetypes intake) raw.linetype := by
    have hkn : kind = c.shape.addKind := (kind_of_shapeOf hadd.shape).symm
    obtain ⟨hv3, hd, hml, -⟩ := ofKind_name hadd.ofKind
    refine ⟨fun hs => hs.linetype, fun hs => ⟨fun hk => ?_, fun hk => ?_, fun hk => ?_, hs⟩⟩
    · have hk' := hv3.mp hk
      rw [hkn] at hk'
      rcases hbs with hb | hb | hb | hb <;> simp [hb] at hk'
    · have hk' := hml.mp hk
      rw [hkn] at hk'
      rcases hbs with hb | hb | hb | hb <;> simp [hb] at hk'
    · have hk' := hd.mp hk
      rw [hkn] at hk'
      rcases hbs with hb | hb | hb | hb <;> simp [hb] at hk'
  have hsy : styleOf (knownLinetypes intake) c.raw.addition =
      styleOf (knownLinetypes intake) (Added.raw ⟨c.placed, c.style⟩) := by
    rw [c.addition_raw]
    rfl
  rw [← hl, ← hst]
  constructor
  · intro ha
    obtain ⟨kind', layer', hadd'⟩ := ha.adds
    exact ⟨⟨kind', layer', (adds_childKind hbs).mp hadd'⟩, hsy ▸ ha.style⟩
  rintro ⟨⟨kind', layer', hadd'⟩, hsy'⟩
  refine ⟨?_, ⟨c.shape.childKind, ?_, rfl⟩, ?_, ?_, ⟨kind', layer', (adds_childKind hbs).mpr hadd'⟩,
    h.points, hsy.trans hsy', h.bytes, h.planar⟩
  · cases hsh : c.shape <;> simp [Child.raw, hsh, Shape.raw, blank]
  · cases hsh : c.shape <;> simp [Shape.childKind, addKinds]
  · cases hsh : c.shape with
    | lwpolyline closed pts xdata =>
      have hx := (hadd.shape_facts.1 closed pts xdata hsh).trans h.xdata
      simp [Child.raw, hsh, Shape.raw, hx]
    | _ => simp [Child.raw, hsh, Shape.raw, blank]
  · cases hsh : c.shape <;> simp [Child.raw, hsh, Shape.raw, blank]

end LeafWeb.Mutation
