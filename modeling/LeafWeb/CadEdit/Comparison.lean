import LeafWeb.CadEdit.Readings

namespace LeafWeb.CadEdit

open Lib List Option LeafWeb.CadEdit.Part Draft Prod

variable {kind l l' : String} {p q : Props} {rest : Draft} {α : Type} {c : Prop} {a : Linear}
  {e e' : Entity} {g was now : Geometry} {look : String → List Point → String → LeaderLook}

section

variable (t : JsText) (h : String)

structure GeometryOnly (m : Mutations) : Prop where
  setLayer : m.setLayer = []
  setColor : m.setColor = []
  setLinetype : m.setLinetype = []
  setLineweight : m.setLineweight = []

lemma changeProps_accepted (ha : (changeProps t h kind p q rest).Accepted) :
    (p.trueColor = q.trueColor ∨ q.trueColor = none) ∧ rest.Accepted := by
  unfold changeProps at ha
  split at ha
  · exact (not_accepted_refuse ha).elim
  rename_i hc
  refine ⟨?_, (accepted_append.mp ha).2⟩
  by_contra hb
  rw [not_or] at hb
  exact hc ⟨hb.1, isSome_iff_ne_none.mpr hb.2⟩

abbrev changes (kind l l' : String) (p q : Props) (rest : Draft) : Draft :=
  changeLayer h l l' ++ changeProps t h kind p q rest

def recoloured (p q : Props) : Prop := p.aci ≠ q.aci ∨ (p.trueColor.isSome ∧ q.trueColor = none) deriving Decidable

lemma ops_changes (hc : p.trueColor = q.trueColor ∨ q.trueColor = none) :
    (changes t h kind l l' p q rest).ops =
      (({ Mutations.empty with
          setLayer := if l ≠ l' then [(h, l')] else []
          setColor := if recoloured p q then [(h, q.aci)] else []
          setLinetype := if t.lower p.linetype ≠ t.lower q.linetype then [(h, q.linetype)] else []
          setLineweight := if p.lineweight ≠ q.lineweight then [(h, q.lineweight)] else [] } :
        Mutations).append rest.ops) := by
  have hn : ¬(p.trueColor ≠ q.trueColor ∧ q.trueColor.isSome = true) := by
    rintro ⟨hne, hs⟩
    rcases hc with hc | hc
    · exact hne hc
    · simp [hc] at hs
  unfold changes changeProps
  rw [if_neg hn]
  rfl

lemma on_single (key : α → String) [Decidable c] {a : α} (ha : key a = h) :
    ((if c then [a] else []).find? fun x => key x = h) = if c then some a else none := by
  split_ifs
  · simp [ha]
  · rfl

lemma getD_ite {β : Type} (f : α → β) [Decidable c] {a b : α} (hc : ¬c → f a = f b) :
    f ((if c then some b else none).getD a) = f b := by
  split_ifs with hp
  · rfl
  · exact hc hp

lemma sameProps_edited {n : Mutations} (hc : p.trueColor = q.trueColor ∨ q.trueColor = none)
    (hcl : setColor.on n h = if recoloured p q then some (h, q.aci) else none)
    (hln : setLinetype.on n h =
      if t.lower p.linetype ≠ t.lower q.linetype then some (h, q.linetype) else none)
    (hwg : setLineweight.on n h = if p.lineweight ≠ q.lineweight then some (h, q.lineweight) else none) :
    sameProps t (editProps n h p) q = true ↔ (q.trueColor ≠ none → p.aci = q.aci) := by
  have hlw : (editProps n h p).lineweight = q.lineweight := by
    rw [editProps, hwg, map_if]
    exact getD_ite id not_not.mp
  have hlt : t.lower (editProps n h p).linetype = t.lower q.linetype := by
    rw [editProps, hln, map_if]
    exact getD_ite t.lower not_not.mp
  rw [sameProps_iff]
  simp only [hlw, hlt, and_true]
  simp only [editProps, hcl]
  by_cases hr : recoloured p q
  · simp only [if_pos hr, map_some, getD_some, true_and]
    rcases hr with hr | ⟨-, hr⟩
    · constructor
      · intro hq hne
        exact (hne hq.symm).elim
      · intro hq
        by_contra hne
        exact hr (hq (Ne.symm hne))
    · simp [hr]
  · simp only [if_neg hr]
    rw [recoloured, not_or, not_not] at hr
    refine ⟨fun _ _ => hr.1, fun _ => ⟨hr.1, ?_⟩⟩
    rcases hc with hc | hc
    · simpa using hc
    · have hp : p.trueColor = none := by
        by_contra hne
        exact hr.2 ⟨isSome_iff_ne_none.mpr hne, hc⟩
      simp [hp, hc]

lemma edit_changes (s : Shape) (z : Point)
    (ha : (changes t h kind l l' p q rest).Accepted) (hrs : GeometryOnly rest.ops) :
    ∃ props, edit (changes t h kind l l' p q rest).ops h ⟨l, s, p, z⟩ = ⟨l', editShape rest.ops h s, props, z⟩ ∧
      (sameProps t props q = true ↔ (q.trueColor ≠ none → p.aci = q.aci)) := by
  have hc := (changeProps_accepted t h (accepted_append.mp ha).2).1
  rw [ops_changes t h hc]
  set n : Mutations := Mutations.append _ rest.ops with hn
  have hly : setLayer.on n h = if l ≠ l' then some (h, l') else none := by
    simp only [hn, Mutations.append, hrs.setLayer, append_nil]
    exact on_single h fst rfl
  have hl : ((setLayer.on n h).map snd).getD l = l' := by
    rw [hly, map_if]
    exact getD_ite id not_not.mp
  refine ⟨editProps n h p, ?_, sameProps_edited t h hc ?_ ?_ ?_⟩
  · simp only [edit, hl]
    rfl
  · simp only [hn, Mutations.append, hrs.setColor, append_nil]
    exact on_single h fst rfl
  · simp only [hn, Mutations.append, hrs.setLinetype, append_nil]
    exact on_single h fst rfl
  · simp only [hn, Mutations.append, hrs.setLineweight, append_nil]
    exact on_single h fst rfl

lemma edit_empty (d : Drawn) : edit .empty h d = d := by
  obtain ⟨layer, shape, props, normal⟩ := d
  cases shape <;> rfl

lemma sameShape_circle (c c' : Point) (r r' : ℚ) :
    sameShape (editShape (changeCircle h c c' r r').ops h (.circle c r)) (.circle c' r') = true := by
  by_cases hs : (samePoint c c' && sameNumber r r') = true
  · simp [editShape, on, setCircle, changeCircle, hs, sameShape]
  · simp [editShape, on, setCircle, changeCircle, hs, sameShape_refl]

lemma sameShape_arc (c c' : Point) (r r' s s' u u' : ℚ) :
    sameShape (editShape (changeArc h c c' r r' s s' u u').ops h (.arc c r s u)) (.arc c' r' s' u') = true := by
  by_cases hs : (samePoint c c' && sameNumber r r' && sameNumber s s' && sameNumber u u') = true
  · simp [editShape, on, setArc, changeArc, hs, sameShape]
  · simp [editShape, on, setArc, changeArc, hs, sameShape_refl]

lemma sameShape_points {b : Linear} (w w' : Option Widths) (ha : Bulged a) (hb : Bulged b)
    (hacc : (changePoints h a b).Accepted) :
    sameShape (editShape (changePoints h a b).ops h (.linear a.closed a.pts (drawnBulges a) w))
      (.linear b.closed b.pts (drawnBulges b) w') = true ↔
      (if a.pts.length = b.pts.length then w else none) = w' := by
  unfold changePoints at hacc ⊢
  by_cases hs : sameLinear a b = true
  · rw [if_pos hs]
    simp only [sameLinear, Bool.and_eq_true] at hs
    obtain ⟨⟨hcl, hpts⟩, hbl⟩ := hs
    have hp : a.pts.length = b.pts.length := by
      simp only [samePoints, allSame, Bool.and_eq_true, decide_eq_true_eq] at hpts
      exact hpts.1
    have hd : allSame sameNumber (drawnBulges a) (drawnBulges b) = true := by
      have hl : a.bulges.length = b.bulges.length := by
        simp only [allSame, Bool.and_eq_true, decide_eq_true_eq] at hbl
        exact hbl.1
      by_cases hn : a.bulges = []
      · have hn' : b.bulges = [] := by
          rw [← length_eq_zero_iff, ← hl, hn, length_nil]
        simp only [drawnBulges, if_pos hn, if_pos hn', straight, hp]
        exact allSame_refl sameNumber_refl _
      · have hn' : b.bulges ≠ [] := by
          intro hb'
          rw [hb', length_nil, length_eq_zero_iff] at hl
          exact hn hl
        simpa [drawnBulges, if_neg hn, if_neg hn'] using hbl
    simp [editShape, on, setPoints, Mutations.empty, sameShape, hcl, hpts, hd, hp]
  rw [if_neg hs] at hacc ⊢
  by_cases hc : (a.curved || b.curved) = true
  · rw [if_pos hc] at hacc
    exact (not_accepted_refuse hacc).elim
  · rw [if_neg hc]
    rw [Bool.or_eq_true, not_or, Bool.not_eq_true, Bool.not_eq_true] at hc
    by_cases hl : b.pts.length = a.pts.length
    · have hf : allSame sameNumber (drawnBulges a) (drawnBulges b) = true :=
        allSame_of_flat (by rw [ha.drawn_length, hb.drawn_length, hl]) (ha.drawn_flat hc.1) (hb.drawn_flat hc.2)
      simp [editShape, on, setPoints, sameShape, samePoints_refl, hf, hl]
    · have hf : allSame sameNumber (straight b.pts) (drawnBulges b) = true :=
        allSame_of_flat (by rw [hb.drawn_length, straight, length_replicate]) (flat_straight _)
          (hb.drawn_flat hc.2)
      simp [editShape, on, setPoints, sameShape, samePoints_refl, hf, hl, Ne.symm hl]

lemma changePoints_geometryOnly (a b : Linear) : GeometryOnly (changePoints h a b).ops := by
  unfold changePoints
  split_ifs
  all_goals exact ⟨rfl, rfl, rfl, rfl⟩

lemma sameDrawn_changes {s s' : Shape} (n n' : Point) (ha : (changes t h kind l l' p q rest).Accepted)
    (hr : GeometryOnly rest.ops) (hsh : sameShape (editShape rest.ops h s) s' = true ↔ c) :
    sameDrawn t (edit (changes t h kind l l' p q rest).ops h ⟨l, s, p, n⟩) ⟨l', s', q, n'⟩ = true ↔
      samePoint n n' = true ∧ c ∧ (q.trueColor ≠ none → p.aci = q.aci) := by
  obtain ⟨props, he, hp⟩ := edit_changes t h s n ha hr
  simp only [sameDrawn, he, Bool.and_eq_true, hsh, hp, decide_true, true_and]
  exact and_comm

section

variable {t h}

lemma compareOpaque_accepted (ha : (compareOpaque h was now).Accepted) :
    was = now ∧ (compareOpaque h was now).ops = .empty := by
  unfold compareOpaque at ha ⊢
  split_ifs at ha ⊢ with _ hs
  · exact (not_accepted_refuse ha).elim
  · exact ⟨hs, rfl⟩
  · exact (not_accepted_refuse ha).elim

lemma compared_opaque {p : OpaquePrint} (hw : geometryOf e = some (.opaqueKind p)) :
    sameDrawn t (drawnAs e (.opaqueKind p)) (drawnAs e' (.opaqueKind p)) = true ↔ Compared t e e' := by
  simp only [Compared, hw, sameDrawn, drawnAs, sameShape, sameProps_refl, decide_true, Bool.true_and,
    Bool.and_true, Bool.and_eq_true, decide_eq_true_eq, and_assoc]
  tauto

lemma compared_mleader {p : MleaderPrint} {pts pts' : Option (List Point)} {v v' : Bool}
    (hw : geometryOf e = some (.mleader pts p v)) (hn : geometryOf e' = some (.mleader pts' p v')) :
    sameDrawn t (drawnAs e (.mleader pts p v)) (drawnAs e' (.mleader pts' p v')) = true ↔ Compared t e e' := by
  obtain ⟨rfl, hv, -⟩ := geometryOf_reads hw
  obtain ⟨rfl, hv', -⟩ := geometryOf_reads hn
  have hpts : mleaderPoints e = mleaderPoints e' := by
    simp [mleaderPoints, ← hv, ← hv']
  simp [Compared, hw, sameDrawn, drawnAs, sameProps_refl, hpts, sameShape_refl]

lemma compared_insert {p : InsertPrint} {props props' : Props} (hw : geometryOf e = some (.insert p props))
    (hn : geometryOf e' = some (.insert p props'))
    (ha : (changes t h "INSERT" p.layer p.layer props props' .empty).Accepted) :
    sameDrawn t (edit (changes t h "INSERT" p.layer p.layer props props' .empty).ops h
        (drawnAs e (.insert p props))) (drawnAs e' (.insert p props')) = true ↔
      Compared t e e' := by
  obtain ⟨rfl, hz⟩ := geometryOf_reads hw
  obtain ⟨rfl, -⟩ := geometryOf_reads hn
  have hsh : sameShape (editShape (empty).ops h (drawnAs e (.insert p (propsOf e))).shape)
      (drawnAs e' (.insert p (propsOf e'))).shape = true ↔ sameNumber (insertionZ e) (insertionZ e') = true := by
    simp [drawnAs, editShape, sameShape, samePoint, sameNumber_refl, sameAngle_refl]
  simp only [Compared, hw]
  exact sameDrawn_changes t h _ _ ha ⟨rfl, rfl, rfl, rfl⟩ hsh

lemma compareEntity_saves (hw : geometryOf e = some was) (hn : geometryOf e' = some now)
    (hacc : (compareEntity t h was now).Accepted) :
    sameDrawn t (edit (compareEntity t h was now).ops h (drawnAs e was)) (drawnAs e' now) = true ↔
      Compared t e e' := by
  unfold compareEntity at hacc ⊢
  split_ifs at hacc ⊢ with hop
  · obtain ⟨rfl, ho⟩ := compareOpaque_accepted hacc
    rw [ho, edit_empty]
    cases was with
    | opaqueKind p => exact compared_opaque hw
    | circle | arc | line | polyline | insert | dimension | mleader => simp [Geometry.opaqueType] at hop
  · unfold comparePlan at hacc ⊢
    split at hacc
    · split_ifs at hacc with hp
      · exact (not_accepted_refuse hacc).elim
      · rw [not_not] at hp
        subst hp
        rw [if_neg (not_not.mpr rfl)]
        exact compared_insert hw hn hacc
    · split_ifs at hacc with hp
      · subst hp
        rw [if_pos rfl, ops_empty, edit_empty]
        exact compared_mleader hw hn
      · exact (not_accepted_refuse hacc).elim
    · split_ifs at hacc with hp
      · subst hp
        rw [if_pos rfl, ops_empty, edit_empty]
        simp [Compared, hw, sameDrawn, drawnAs, sameShape_refl, and_comm]
      · exact (not_accepted_refuse hacc).elim
    next l c r props l' c' r' props' =>
      have hp : props = propsOf e := geometryOf_reads hw
      have hp' : props' = propsOf e' := geometryOf_reads hn
      subst hp hp'
      simp only [Compared, hw]
      rw [← true_and (ColourKept e e')]
      exact sameDrawn_changes t h _ _ hacc ⟨rfl, rfl, rfl, rfl⟩ (iff_true_intro (sameShape_circle h c c' r r'))
    next l c r a b props l' c' r' a' b' props' =>
      have hp : props = propsOf e := geometryOf_reads hw
      have hp' : props' = propsOf e' := geometryOf_reads hn
      subst hp hp'
      simp only [Compared, hw]
      rw [← true_and (ColourKept e e')]
      exact sameDrawn_changes t h _ _ hacc ⟨rfl, rfl, rfl, rfl⟩
        (iff_true_intro (sameShape_arc h c c' r r' a a' b b'))
    · split at hacc
      next a b ha hb =>
        obtain ⟨hda, hpa, hba⟩ := drawnAs_linear (geometryOf_reads hw) ha
        obtain ⟨hdb, hpb, hbb⟩ := drawnAs_linear (geometryOf_reads hn) hb
        have hc : Compared t e e' ↔
            samePoint (normalOf e) (normalOf e') = true ∧ WidthsKept e e' ∧ ColourKept e e' := by
          cases was with
          | line | polyline => simp only [Compared, hw]
          | circle | arc | insert | dimension | mleader | opaqueKind => cases ha
        simp only [hda, hdb, hc, ColourKept, ← hpa, ← hpb]
        simp only [WidthsKept, vertexCount, hw, hn, bind_some, ha, hb, map_some, getD_some]
        exact sameDrawn_changes t h _ _ hacc (changePoints_geometryOnly h a b)
          (sameShape_points h _ _ hba hbb (changeProps_accepted t h (accepted_append.mp hacc).2).2)
      · exact (not_accepted_refuse hacc).elim

end

section

variable {t h}

lemma sameProps_styled (p : Props) :
    sameProps t ⟨(styleOf t p).color.getD 256, none, (styleOf t p).linetype.getD "ByLayer",
      (styleOf t p).lineweight.getD (-1)⟩ p = true ↔ p.trueColor = none := by
  have hc : (styleOf t p).color.getD 256 = p.aci := getD_ite id fun ha => (not_not.mp ha).symm
  have hl : t.lower ((styleOf t p).linetype.getD "ByLayer") = t.lower p.linetype := by
    refine getD_ite t.lower fun ha => ?_
    rw [t.lower_byLayer, not_not.mp ha]
  have hw : (styleOf t p).lineweight.getD (-1) = p.lineweight := getD_ite id fun ha => (not_not.mp ha).symm
  rw [sameProps_iff]
  simp only [hc, hl, hw, true_and, and_true]
  exact eq_comm

lemma mleader_valid_reads {pts : Option (List Point)} {p : MleaderPrint} (hr : Reads e (.mleader pts p true)) :
    (∃ l, pts = some l) ∧ (∃ x, p.text = some x) ∧ ∃ x, p.style = some x := by
  obtain ⟨rfl, -, htx, hst, -, hv⟩ := hr
  rw [htx, hst]
  simp only [mleaderValid, eq_comm (a := true), Bool.and_eq_true] at hv
  obtain ⟨⟨hp, ht⟩, hs⟩ := hv
  refine ⟨?_, ?_, ?_⟩
  · cases hm : mleaderPoints e with
    | none => simp [hm] at hp
    | some l => exact ⟨l, rfl⟩
  · cases hm : e.text with
    | none => simp [hm] at ht
    | some l => exact ⟨l, rfl⟩
  · cases hm : e.style with
    | none => simp [hm, nonempty] at hs
    | some l => exact ⟨l, rfl⟩

lemma added_linear (hn : geometryOf e = some g) (ha : linearOf g = some a) (hc : a.curved = false)
    (hr : (addedRecord t h g).drawn look = ⟨a.layer, .linear a.closed a.pts (straight a.pts) none,
      ⟨(styleOf t a.props).color.getD 256, none, (styleOf t a.props).linetype.getD "ByLayer",
        (styleOf t a.props).lineweight.getD (-1)⟩, unitZ⟩) :
    sameDrawn t ((addedRecord t h g).drawn look) (drawnAs e g) = true ↔
      samePoint unitZ (normalOf e) = true ∧ widthsOf e = none ∧ (propsOf e).trueColor = none := by
  obtain ⟨hd, hp, hb⟩ := drawnAs_linear (geometryOf_reads hn) ha
  have hf : allSame sameNumber (straight a.pts) (drawnBulges a) = true :=
    allSame_of_flat (by rw [hb.drawn_length, straight, length_replicate]) (flat_straight _) (hb.drawn_flat hc)
  rw [hr, hd, ← hp]
  simp only [sameDrawn, sameShape, samePoints_refl, hf, decide_true, Bool.true_and, Bool.and_eq_true,
    decide_eq_true_eq, sameProps_styled, eq_comm (a := none)]
  tauto

lemma addedRecord_saves {before : Dict String Geometry} (hn : geometryOf e = some now) (hb : before.get h = none)
    (ha : (addEntity t h before now).Accepted) :
    (addEntity t h before now).ops.added = [addedRecord t h now] ∧
      (sameDrawn t ((addedRecord t h now).drawn look) (drawnAs e now) = true ↔ Addable look t e) := by
  have hr := geometryOf_reads hn
  simp only [addEntity, hb] at ha ⊢
  cases now with
  | opaqueKind p => exact (not_accepted_refuse ha).elim
  | circle | arc =>
    cases hr
    simp only [Addable, hn]
    simp [sameDrawn, AddedRecord.drawn, addedRecord, AddedShape.shape, drawnAs, sameShape,
      samePoint_refl, sameNumber_refl, sameProps_styled (propsOf e), and_comm]
  | line l pts p =>
    refine ⟨rfl, ?_⟩
    simp only [Addable, hn]
    exact added_linear hn rfl rfl rfl
  | polyline l closed pts bulges curved p =>
    cases curved with
    | true => exact (not_accepted_refuse ha).elim
    | false =>
      refine ⟨rfl, ?_⟩
      simp only [Addable, hn]
      exact added_linear hn rfl rfl rfl
  | insert p props =>
    obtain ⟨rfl, hz⟩ := hr
    refine ⟨rfl, ?_⟩
    simp only [Addable, hn]
    have hs := sameProps_styled (t := t) (propsOf e)
    have hpt : samePoint p.point ⟨p.point.x, p.point.y, insertionZ e⟩ = sameNumber 0 (insertionZ e) := by
      simp [samePoint, sameNumber_refl, hz]
    simp only [sameDrawn, AddedRecord.drawn, addedRecord, AddedShape.shape, drawnAs, sameShape, hpt,
      samePoint_refl, decide_true, Bool.true_and, Bool.and_true, Bool.and_eq_true, decide_eq_true_eq, hs,
      eq_comm (a := (1 : ℚ)), eq_comm (a := (0 : ℚ))]
    tauto
  | dimension p =>
    simp only [Addable, hn]
    have hrot : sameAngle ((if p.dimtype = "LINEAR" then some (normalizedDeg p.rotation)
        else none : Option ℚ).getD 0) p.rotation = true ↔
        (p.dimtype = "LINEAR" → sameAngle (normalizedDeg p.rotation) p.rotation = true) := by
      split_ifs with hl
      · simp [hl]
      · simp [hl, hr hl, sameAngle_refl]
    simp [sameDrawn, AddedRecord.drawn, addedRecord, AddedShape.shape, drawnAs, sameShape,
      samePoint_refl, hrot, Style.none, plainProps]
    tauto
  | mleader pts p v =>
    cases v with
    | false => exact (not_accepted_refuse ha).elim
    | true =>
      obtain ⟨⟨l, rfl⟩, ⟨x, hx⟩, y, hy⟩ := mleader_valid_reads hr
      have hp : p.props = propsOf e := hr.2.2.2.2.1
      simp only [Addable, hn]
      simp [sameDrawn, AddedRecord.drawn, addedRecord, AddedShape.shape, drawnAs, sameShape,
        sameOption, samePoints_refl, hx, hy, hp, Style.none, plainProps]
      tauto

end

structure Single (m : Mutations) : Prop where
  setLayer : m.setLayer.length ≤ 1
  setPoints : m.setPoints.length ≤ 1
  setCircle : m.setCircle.length ≤ 1
  setArc : m.setArc.length ≤ 1
  setColor : m.setColor.length ≤ 1
  setLinetype : m.setLinetype.length ≤ 1
  setLineweight : m.setLineweight.length ≤ 1

lemma Single.empty : Single .empty := by
  constructor <;> exact Nat.zero_le 1

lemma length_single [Decidable c] (a : α) : (if c then [a] else []).length ≤ 1 := by
  split_ifs <;> simp

section

variable {t h}

lemma single_changes (ha : (changes t h kind l l' p q rest).Accepted) (hr : GeometryOnly rest.ops)
    (hs : Single rest.ops) : Single (changes t h kind l l' p q rest).ops := by
  rw [ops_changes t h (changeProps_accepted t h (accepted_append.mp ha).2).1]
  constructor
  · simp only [Mutations.append, hr.setLayer, append_nil]
    exact length_single _
  · exact hs.setPoints
  · exact hs.setCircle
  · exact hs.setArc
  · simp only [Mutations.append, hr.setColor, append_nil]
    exact length_single _
  · simp only [Mutations.append, hr.setLinetype, append_nil]
    exact length_single _
  · simp only [Mutations.append, hr.setLineweight, append_nil]
    exact length_single _

lemma single_changeCircle (c c' : Point) (r r' : ℚ) : Single (changeCircle h c c' r r').ops := by
  constructor <;> simp [changeCircle, Mutations.empty]
  split_ifs <;> simp

lemma single_changeArc (c c' : Point) (r r' a a' b b' : ℚ) : Single (changeArc h c c' r r' a a' b b').ops := by
  constructor <;> simp [changeArc, Mutations.empty]
  split_ifs <;> simp

lemma single_changePoints (a b : Linear) : Single (changePoints h a b).ops := by
  unfold changePoints
  split_ifs
  · exact Single.empty
  · exact Single.empty
  · constructor <;> simp [Mutations.empty]

lemma single_compareEntity (ha : (compareEntity t h was now).Accepted) :
    Single (compareEntity t h was now).ops := by
  unfold compareEntity at ha ⊢
  split_ifs at ha ⊢
  · rw [(compareOpaque_accepted ha).2]
    exact Single.empty
  unfold comparePlan at ha ⊢
  split at ha
  · split_ifs at ha ⊢
    · exact (not_accepted_refuse ha).elim
    · exact single_changes ha ⟨rfl, rfl, rfl, rfl⟩ Single.empty
  · split_ifs at ha ⊢
    · exact Single.empty
    · exact (not_accepted_refuse ha).elim
  · split_ifs at ha ⊢
    · exact Single.empty
    · exact (not_accepted_refuse ha).elim
  · exact single_changes ha ⟨rfl, rfl, rfl, rfl⟩ (single_changeCircle _ _ _ _)
  · exact single_changes ha ⟨rfl, rfl, rfl, rfl⟩ (single_changeArc _ _ _ _ _ _ _ _)
  · split at ha
    · exact single_changes ha (changePoints_geometryOnly h _ _) (single_changePoints _ _)
    · exact (not_accepted_refuse ha).elim

end

section

variable {h} {m n : Mutations}

lemma find?_eq_of_mem {key : α → String} {l l' : List α}
    (hmem : ∀ a, key a = h → (a ∈ l ↔ a ∈ l')) (ho : l'.length ≤ 1) :
    (l.find? fun a => key a = h) = l'.find? fun a => key a = h := by
  cases hl : l'.find? fun a => key a = h with
  | none =>
    rw [find?_eq_none] at hl ⊢
    intro a ha hk
    exact hl a ((hmem a (of_decide_eq_true hk)).mp ha) hk
  | some b =>
    have hkb : key b = h := by simpa using find?_some hl
    have hb := mem_of_find?_eq_some hl
    cases hm : l.find? fun a => key a = h with
    | none =>
      rw [find?_eq_none] at hm
      exact (hm b ((hmem b hkb).mpr hb) (decide_eq_true hkb)).elim
    | some a =>
      have hka : key a = h := by simpa using find?_some hm
      have ha := (hmem a hka).mp (mem_of_find?_eq_some hm)
      rcases l' with _ | ⟨x, _ | ⟨y, l'⟩⟩
      · cases hb
      · rw [mem_singleton] at ha hb
        rw [ha, hb]
      · simp at ho

lemma edit_eq_of_mem (hm : ∀ {α : Type} (p : Part α) (a : α), p.key a = h →
      (a ∈ p.pick m ↔ a ∈ p.pick n)) (hs : Single n) (d : Drawn) : edit m h d = edit n h d := by
  have hl : setLayer.on m h = setLayer.on n h := find?_eq_of_mem (hm setLayer) hs.setLayer
  have hp : setPoints.on m h = setPoints.on n h := find?_eq_of_mem (hm setPoints) hs.setPoints
  have hc : setCircle.on m h = setCircle.on n h := find?_eq_of_mem (hm setCircle) hs.setCircle
  have ha : setArc.on m h = setArc.on n h := find?_eq_of_mem (hm setArc) hs.setArc
  have hcl : setColor.on m h = setColor.on n h := find?_eq_of_mem (hm setColor) hs.setColor
  have hln : setLinetype.on m h = setLinetype.on n h := find?_eq_of_mem (hm setLinetype) hs.setLinetype
  have hw : setLineweight.on m h = setLineweight.on n h := find?_eq_of_mem (hm setLineweight) hs.setLineweight
  have hsh : editShape m h d.shape = editShape n h d.shape := by
    cases d.shape <;> simp only [editShape, hp, hc, ha]
  simp [edit, editProps, hl, hcl, hln, hw, hsh]

end

end

end LeafWeb.CadEdit
