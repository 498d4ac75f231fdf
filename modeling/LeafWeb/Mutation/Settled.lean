import LeafWeb.Mutation.Additions
import Mathlib.Tactic.LinearCombination

namespace LeafWeb.Mutation

open Lib Option RawAdded Shape

variable {axis : ℚ × ℚ} {def1 def2 q : Pt}

section

variable {p : Pt}

def along (axis : ℚ × ℚ) (def2 p : Pt) : ℚ := (p.x - def2.x) * axis.1 + (p.y - def2.y) * axis.2

def OnLine (axis : ℚ × ℚ) (def2 p : Pt) : Prop :=
  |along axis def2 p * axis.1| ≤ 1 / 1000 ∧ |along axis def2 p * axis.2| ≤ 1 / 1000

/-- A point kept as submitted is on the line once it is rounded; any other is moved to its foot. -/
def LineSettled (axis : ℚ × ℚ) (def2 p : Pt) : Prop :=
  (OnLine axis def2 p → OnLine axis def2 (p.rounded 3)) ∧
    (¬OnLine axis def2 p →
      |roundTo 3 (p.x - along axis def2 p * axis.1)| ≤ maxCoordinate ∧
        |roundTo 3 (p.y - along axis def2 p * axis.2)| ≤ maxCoordinate)

def foot (axis : ℚ × ℚ) (def2 p : Pt) : Pt :=
  ⟨p.x - along axis def2 p * axis.1, p.y - along axis def2 p * axis.2, def2.z⟩

section

variable (h : axis.1 ^ 2 + axis.2 ^ 2 = 1)
include h

lemma projected_eq : projected axis def1 def2 p = foot axis def2 p := by
  simp only [projected, foot, along, Pt.mk.injEq, and_true]
  constructor
  · linear_combination (p.x - def2.x) * h
  · linear_combination (p.y - def2.y) * h

lemma along_foot : along axis def2 (foot axis def2 p) = 0 := by
  have he : along axis def2 (foot axis def2 p) =
      along axis def2 p - along axis def2 p * (axis.1 ^ 2 + axis.2 ^ 2) := by
    simp only [along, foot]
    ring
  rw [he, h]
  ring

lemma near_projected (hz : |p.z - def2.z| ≤ 1 / 1000) :
    near p (projected axis def1 def2 p) ↔ OnLine axis def2 p := by
  rw [projected_eq h]
  simp only [near, foot, sub_sub_cancel]
  exact ⟨fun h => ⟨h.1, h.2.1⟩, fun h => ⟨h.1, h.2, hz⟩⟩

lemma onLine_of_close (hq : along axis def2 q = 0)
    (hx : |p.x - q.x| ≤ 1 / 2000) (hy : |p.y - q.y| ≤ 1 / 2000) : OnLine axis def2 p := by
  have ha : along axis def2 p = (p.x - q.x) * axis.1 + (p.y - q.y) * axis.2 := by
    have hd : along axis def2 p - along axis def2 q = (p.x - q.x) * axis.1 + (p.y - q.y) * axis.2 := by
      simp only [along]
      ring
    rw [← hd, hq, sub_zero]
  have hb : ∀ a b e f : ℚ, a ^ 2 + b ^ 2 = 1 → |e| ≤ 1 / 2000 → |f| ≤ 1 / 2000 →
      |(e * a + f * b) * a| ≤ 1 / 1000 := by
    intro a b e f hab he hf
    have hs : a ^ 2 ≤ 1 := by nlinarith [sq_nonneg b]
    have hp : |a * b| ≤ 1 := abs_le.mpr ⟨by nlinarith [sq_nonneg (a + b)], by nlinarith [sq_nonneg (a - b)]⟩
    calc |(e * a + f * b) * a| = |e * a ^ 2 + f * (a * b)| := by ring_nf
      _ ≤ |e * a ^ 2| + |f * (a * b)| := abs_add_le _ _
      _ = |e| * a ^ 2 + |f| * |a * b| := by rw [abs_mul, abs_mul, abs_of_nonneg (sq_nonneg a)]
      _ ≤ 1 / 2000 * 1 + 1 / 2000 * 1 := by
        apply add_le_add
        · exact mul_le_mul he hs (sq_nonneg a) (by norm_num)
        · exact mul_le_mul hf hp (abs_nonneg _) (by norm_num)
      _ = 1 / 1000 := by norm_num
  rw [OnLine, ha]
  refine ⟨hb _ _ _ _ h hx hy, ?_⟩
  rw [add_comm]
  exact hb _ _ _ _ (by rw [add_comm]; exact h) hy hx

end

lemma abs_sub_roundTo (x : ℚ) : |roundTo 3 x - x| ≤ 1 / 2000 := by
  have h := abs_roundTo_sub_le 3 x
  linarith

lemma onLine_of_foot_rounds (h : axis.1 ^ 2 + axis.2 ^ 2 = 1)
    (hf : (projected axis def1 def2 p).rounded 3 = p) : OnLine axis def2 p := by
  rw [projected_eq h] at hf
  have hx := abs_sub_roundTo (foot axis def2 p).x
  have hy := abs_sub_roundTo (foot axis def2 p).y
  rw [show roundTo 3 (foot axis def2 p).x = p.x from congrArg Pt.x hf] at hx
  rw [show roundTo 3 (foot axis def2 p).y = p.y from congrArg Pt.y hf] at hy
  exact onLine_of_close h (along_foot h) hx hy

lemma dimensionLine_rounded (axis : ℚ × ℚ) (def1 def2 p : Pt) :
    (dimensionLine axis def1 def2 p).rounded 3 = dimensionLine axis def1 def2 p := by
  unfold dimensionLine
  dsimp only
  split <;> exact Pt.rounded_rounded 3 _

lemma dimensionLine_again (def1 : Pt) (h : axis.1 ^ 2 + axis.2 ^ 2 = 1) (hp : p.Bounded) (hd : def2.z = 0)
    (hz : roundTo 3 p.z = 0) :
    ((dimensionLine axis def1 def2 p).Bounded ∧ (dimensionLine axis def1 def2 p).z = 0 ∧
      dimensionLine axis def1 def2 (dimensionLine axis def1 def2 p) =
        dimensionLine axis def1 def2 p) ↔ LineSettled axis def2 p := by
  have hc : |p.z - def2.z| ≤ 1 / 1000 := by
    have hr := abs_sub_roundTo p.z
    rw [hz, zero_sub, abs_neg] at hr
    rw [hd, sub_zero]
    linarith
  have hf : ∀ q : Pt, q.z = 0 → |q.z - def2.z| ≤ 1 / 1000 := by
    intro q hq
    rw [hq, hd]
    norm_num
  by_cases hon : OnLine axis def2 p
  · have hk : dimensionLine axis def1 def2 p = p.rounded 3 := if_pos ((near_projected h hc).mpr hon)
    rw [hk]
    constructor
    · rintro ⟨-, hz', ha⟩
      refine ⟨fun _ => ?_, fun ho => absurd hon ho⟩
      by_contra ho
      have hm : dimensionLine axis def1 def2 (p.rounded 3) = (projected axis def1 def2 (p.rounded 3)).rounded 3 :=
        if_neg fun hn => ho ((near_projected h (hf _ hz')).mp hn)
      rw [hm] at ha
      exact ho (onLine_of_foot_rounds h ha)
    · intro hs
      have hz' : (p.rounded 3).z = 0 := hz
      refine ⟨hp.rounded 3, hz', ?_⟩
      have hk' : dimensionLine axis def1 def2 (p.rounded 3) = (p.rounded 3).rounded 3 :=
        if_pos ((near_projected h (hf _ hz')).mpr (hs.1 hon))
      rw [hk', Pt.rounded_rounded]
  · have hm : dimensionLine axis def1 def2 p = (projected axis def1 def2 p).rounded 3 :=
      if_neg fun hn => hon ((near_projected h hc).mp hn)
    rw [hm, projected_eq h]
    have hz' : ((foot axis def2 p).rounded 3).z = 0 := by simp [foot, Pt.rounded, hd]
    constructor
    · rintro ⟨hb, -, -⟩
      exact ⟨fun hon' => absurd hon' hon, fun _ => ⟨hb.1, hb.2.1⟩⟩
    intro hs
    obtain ⟨hx, hy⟩ := hs.2 hon
    refine ⟨⟨hx, hy, ?_⟩, hz', ?_⟩
    · rw [hz', abs_zero]
      norm_num [maxCoordinate]
    · have hon' : OnLine axis def2 ((foot axis def2 p).rounded 3) :=
        onLine_of_close h (along_foot h) (abs_sub_roundTo _) (abs_sub_roundTo _)
      exact (if_pos ((near_projected h (hf _ hz')).mpr hon')).trans (Pt.rounded_rounded 3 _)

end

def SpeltSafely (known : List String) (requested : Option String) : Prop :=
  ∀ name, requested.bind (spelling known) = some name → safeName name

def leaderSpelling (intake : Intake) (style : String) : Option String :=
  intake.mlstyles.bind fun catalogue =>
    (catalogue.find? fun item => item.name.any fun n => lowerText n = lowerText style).bind MlStyle.name

def measuredAlong (A : Arith) (raw : RawAdded) (def1 def2 : Pt) : ℚ × ℚ :=
  raw.rotation.elim (A.towards (def2.x - def1.x) (def2.y - def1.y)) fun r => A.turned (wrapped r)

structure AddedSettled (A : Arith) (intake : Intake) (raw : RawAdded) : Prop where
  layer : raw.kind ∈ [some "INSERT", some "DIMENSION", some "MLEADER"] →
    SpeltSafely (intake.layers.getD []) raw.layer
  leader : raw.kind = some "MLEADER" → ∀ name, raw.style.bind (leaderSpelling intake) = some name → safeName name
  line : raw.kind = some "DIMENSION" →
    LineSettled
      (measuredAlong A raw ((spot (raw.def1.getD [])).rounded 3) ((spot (raw.def2.getD [])).rounded 3))
      ((spot (raw.def2.getD [])).rounded 3) (spot (raw.dimline.getD []))
  linetype : SpeltSafely (knownLinetypes intake) raw.linetype

variable {known : List String} {v n : String} {raw : RawAdded} {p : Placed}

lemma perhaps_again {x : Option ℤ} {E : Type} {check : ℤ → Except E ℤ}
    (hc : ∀ {v x}, check v = .ok x → check x = .ok x)
    {v : Option ℤ} (h : perhaps check v = .ok x) : perhaps check x = .ok x := by
  rw [perhaps_eq_ok] at h ⊢
  cases h with
  | none => exact .none
  | some h => exact .some (hc h)

lemma colour_again {v c : ℤ} (h : colorValue v = .ok c) : colorValue c = .ok c :=
  colorValue_eq_ok.mpr ⟨rfl, (colorValue_eq_ok.mp h).2⟩

lemma lineweight_again {w v : ℤ} (h : lineweightValue v = .ok w) : lineweightValue w = .ok w :=
  lineweightValue_eq_ok.mpr ⟨rfl, (lineweightValue_eq_ok.mp h).2⟩

lemma linetypeValue_again (h : linetypeValue known v = .ok n) : linetypeValue known n = .ok n ↔ safeName n := by
  rw [linetypeValue_eq_ok] at h ⊢
  exact and_iff_left (spelling_again h.2)

lemma speltSafely_some (h : spelling known v = some n) : SpeltSafely known (some v) ↔ safeName n := by
  simp [SpeltSafely, h]

lemma linetype_again {v n : Option String} (h : perhaps (linetypeValue known) v = .ok n) :
    perhaps (linetypeValue known) n = .ok n ↔ SpeltSafely known v := by
  rw [perhaps_eq_ok] at h ⊢
  cases h with
  | none => exact iff_of_true .none (by simp [SpeltSafely])
  | some h =>
    rw [rel_some_some, linetypeValue_again h, speltSafely_some (linetypeValue_eq_ok.mp h).2]

lemma styleOf_again {style : Style} (h : styleOf known raw = .ok style) :
    styleOf known (Added.raw ⟨p, style⟩) = .ok style ↔ SpeltSafely known raw.linetype := by
  rw [styleOf_eq_ok] at h ⊢
  constructor
  · exact fun ha => (linetype_again h.2.1).mp ha.2.1
  · exact fun hs => ⟨perhaps_again colour_again h.1, (linetype_again h.2.1).mpr hs,
      perhaps_again lineweight_again h.2.2⟩

variable {s : Setting} {kind : AddKind}

section

variable {handle field n' : String} (style : Style)

lemma ofKind_name {k : AddKind} {kind : Option String} (h : AddKind.ofName (kind.getD "LWPOLYLINE") = some k) :
    (kind ∈ [some "INSERT", some "DIMENSION", some "MLEADER"] ↔ k = .insert ∨ k = .dimension ∨ k = .mleader) ∧
    (kind = some "DIMENSION" ↔ k = .dimension) ∧ (kind = some "MLEADER" ↔ k = .mleader) ∧
    (kind = some "INSERT" ↔ k = .insert) := by
  cases kind with
  | none =>
    have hd : AddKind.ofName "LWPOLYLINE" = some .lwpolyline := by decide
    rw [getD_none, hd, some.injEq] at h
    subst h
    simp
  | some name =>
    rw [getD_some] at h
    unfold AddKind.ofName at h
    split_ifs at h with h1 h2 h3 h4 h5 h6 h7 <;> cases h <;> simp [*]

lemma mleaderShape_again (h : mleaderShape s.intake 0 raw = .ok p.shape) :
    mleaderShape s.intake 0 (Added.raw ⟨p, style⟩) = .ok p.shape ↔
      ∀ name, raw.style.bind (leaderSpelling s.intake) = some name → safeName name := by
  obtain ⟨named, spelt, a, b, text, hsh, hr, hs, hsl, hp, hz, hne, ht, -⟩ := mleaderShape_eq_ok.mp h
  have hsp : (∀ name, raw.style.bind (leaderSpelling s.intake) = some name → safeName name) ↔ safeName spelt := by
    rw [hr, bind_some]
    rcases mleaderStyle_eq_ok.mp hsl with ⟨hn, rfl⟩ | ⟨catalogue, entry, hsm, hf, -, hnm⟩
    · simp [leaderSpelling, hn, hs]
    · simp [leaderSpelling, hsm, hf, hnm]
  rw [hsp, mleaderShape_eq_ok]
  simp only [Added.raw, hsh]
  constructor
  · rintro ⟨named', spelt', a', b', text', hsh', hr', hs', -⟩
    rwa [some.inj hr']
  intro hs'
  exact ⟨spelt, spelt, a, b, text, rfl, rfl, hs', mleaderStyle_again hsl, twoPoints_again hp,
    hz, hne, ⟨rfl, ht.2⟩, by decide⟩

lemma insertShape_again {declared : List String} (h : insertShape s.intake declared 0 handle raw = .ok p.shape) :
    insertShape s.intake declared 0 handle (Added.raw ⟨p, style⟩) = .ok p.shape := by
  obtain ⟨name, pt, rot, scale, hs, hi, -⟩ := insertShape_eq_ok.mp h
  obtain ⟨raw', -, hb, hsc⟩ := threeScales_eq_ok.mp hi.scaled
  rw [insertShape_eq_ok]
  refine ⟨name, pt.rounded 3, wrapped rot, scale, ?_, ?_, by decide⟩
  · rw [hs, Pt.rounded_rounded, wrapped_wrapped]
  simp only [Added.raw, hs]
  refine ⟨⟨rfl, hi.named.2⟩, hi.defined, rfl, ?_, rfl, ?_, hi.nonzero, hi.fresh⟩
  · exact point3_raw.mpr ⟨(bounded_of_point3 hi.point).rounded 3, rfl⟩
  refine threeScales_eq_ok.mpr ⟨scale, rfl, ?_, ?_⟩
  · rw [← hsc]
    exact hb.rounded 4
  · rw [← hsc, Pt.rounded_rounded]

variable {A : Arith} {make make' : Pt → String → Shape} {measurement m m' : ℚ} {def1' def2' q' : Pt}
  {raw' : RawAdded}

lemma spot_of_point3 {v : Option (List ℚ)} (h : point3 v field = .ok q) : spot (v.getD []) = q := by
  obtain ⟨l, rfl, -, hs, -⟩ := point3_eq_ok.mp h
  exact hs

section

variable (h : Measures A raw def1 def2 axis measurement make)
include h

lemma Measures.unit : axis.1 ^ 2 + axis.2 ^ 2 = 1 := by
  cases h with
  | linear rotation _ _ => exact A.turned_unit _
  | aligned _ _ _ => exact A.towards_unit _ _

lemma Measures.axis_eq : axis = measuredAlong A raw def1 def2 := by
  cases h with
  | linear rotation hr _ => simp [measuredAlong, hr]
  | aligned hr _ _ => simp [measuredAlong, hr]

lemma Measures.made_raw (q : Pt) (name : String) :
    (make q name).raw.def1 = some def1.raw ∧ (make q name).raw.def2 = some def2.raw ∧
      (make q name).raw.dimline = some q.raw ∧ (make q name).raw.style = some name ∧
        (make q name).raw.measurement = some measurement := by
  cases h <;> exact ⟨rfl, rfl, rfl, rfl, rfl⟩

lemma Measures.again {name : String} (hs : p.shape = make q name) :
    Measures A (Added.raw ⟨p, style⟩) def1 def2 axis measurement make := by
  cases h with
  | linear rotation hr hk =>
    have hrot : (Added.raw ⟨p, style⟩).rotation = some (wrapped rotation) := by
      simp [Added.raw, hs, Shape.raw]
    have ht : (Added.raw ⟨p, style⟩).dimtype = some "LINEAR" := by
      simp [Added.raw, hs, Shape.raw]
    have ha : Measures A (Added.raw ⟨p, style⟩) def1 def2 _ _ _ := .linear _ hrot ht
    rwa [wrapped_wrapped] at ha
  | aligned hr hk hl =>
    apply Measures.aligned _ _ hl
    · simp [Added.raw, hs, Shape.raw, blank]
    · simp [Added.raw, hs, Shape.raw]

end

lemma Measures.made_inj {axis' : ℚ × ℚ} (h : Measures A raw def1 def2 axis m make)
    (h' : Measures A raw' def1' def2' axis' m' make') (heq : make q n = make' q' n') : q = q' ∧ axis = axis' := by
  cases h <;> cases h' <;>
    simp only [linear.injEq, aligned.injEq, reduceCtorEq] at heq
  · obtain ⟨-, -, hq, -, -, hr⟩ := heq
    exact ⟨hq, by rw [hr]⟩
  · obtain ⟨rfl, rfl, hq, -, -⟩ := heq
    exact ⟨hq, rfl⟩

lemma dimensionShape_again (h : dimensionShape s.arith s.intake handle raw = .ok p.shape) :
    dimensionShape s.arith s.intake handle (Added.raw ⟨p, style⟩) = .ok p.shape ↔
      LineSettled (measuredAlong s.arith raw ((spot (raw.def1.getD [])).rounded 3)
        ((spot (raw.def2.getD [])).rounded 3)) ((spot (raw.def2.getD [])).rounded 3)
        (spot (raw.dimline.getD [])) := by
  obtain ⟨def1, def2, submitted, axis, measurement, make, name, hp, hm, hn, har, hs⟩ := dimensionShape_eq_ok.mp h
  obtain ⟨a, ha, ha'⟩ := hp.first
  obtain ⟨b, hb, hb'⟩ := hp.second
  rw [spot_of_point3 ha, spot_of_point3 hb, spot_of_point3 hp.line, ha', hb', ← hm.axis_eq,
    ← dimensionLine_again def1 hm.unit (bounded_of_point3 hp.line) hp.planar.2.1 hp.planar.2.2]
  obtain ⟨hraw1, hraw2, hraw3, hraw4, hraw5⟩ := hm.made_raw (dimensionLine axis def1 def2 submitted) name
  rw [← hs] at hraw1 hraw2 hraw3 hraw4 hraw5
  have hr1 : def1.rounded 3 = def1 := by rw [← ha', Pt.rounded_rounded]
  have hr2 : def2.rounded 3 = def2 := by rw [← hb', Pt.rounded_rounded]
  rw [dimensionShape_eq_ok]
  constructor
  · rintro ⟨def1', def2', submitted', axis', measurement', make', name', hp', hm', -, -, hs'⟩
    obtain ⟨a', ha'', rfl⟩ := hp'.first
    obtain ⟨b', hb'', rfl⟩ := hp'.second
    have hl := hp'.line
    simp only [Added.raw, hraw1, hraw2, hraw3, point3_raw] at ha'' hb'' hl
    obtain ⟨-, rfl⟩ := ha''
    obtain ⟨-, rfl⟩ := hb''
    obtain ⟨hbn, rfl⟩ := hl
    rw [hr1, hr2] at hm' hs'
    obtain ⟨hag, rfl⟩ := hm.made_inj hm' (hs.symm.trans hs')
    have hz := hp'.planar.2.2
    have hz' := congrArg Pt.z (dimensionLine_rounded axis def1 def2 submitted)
    exact ⟨hbn, hz'.symm.trans hz, hag.symm⟩
  · rintro ⟨hbn, hz, hag⟩
    refine ⟨def1, def2, dimensionLine axis def1 def2 submitted, axis, measurement, make, name, ?_,
      hm.again style hs, ?_, ?_, ?_⟩
    · refine ⟨⟨def1, ?_, hr1⟩, ⟨def2, ?_, hr2⟩, hp.apart, ?_, ?_⟩
      · simp only [Added.raw, hraw1]
        exact point3_raw.mpr ⟨ha' ▸ (bounded_of_point3 ha).rounded 3, rfl⟩
      · simp only [Added.raw, hraw2]
        exact point3_raw.mpr ⟨hb' ▸ (bounded_of_point3 hb).rounded 3, rfl⟩
      · simp only [Added.raw, hraw3]
        exact point3_raw.mpr ⟨hbn, rfl⟩
      · exact ⟨hp.planar.1, hp.planar.2.1, by rw [hz, roundTo_zero]⟩
    · simp only [Added.raw, hraw4]
      exact dimensionStyle_eq_ok.mpr ⟨rfl, (dimensionStyle_eq_ok.mp hn).2⟩
    · simp only [Added.raw, hraw5]
      exact agreesWith_self _ _
    · rw [hag, hs]

lemma Rounds.again {c : Pt} {r : ℚ} (h : Rounds raw c r)
    (hx : raw'.xdata = none) (hcl : raw'.closed = none) (hp : raw'.pts = none)
    (hc : raw'.c = some c.raw) (hr : raw'.r = some r) : Rounds raw' c r where
  plain := by simp [hx, hcl]
  pts := hp
  centre := by
    rw [hc, point3_raw]
    exact ⟨bounded_of_point3 h.centre, rfl⟩
  radius := hr
  radius_le := h.radius_le
  positive := h.positive

lemma lwpolylineShape_again (h : lwpolylineShape 0 handle raw = .ok p.shape) :
    lwpolylineShape 0 handle (Added.raw ⟨p, style⟩) = .ok p.shape ∧ (Added.raw ⟨p, style⟩).xdata = raw.xdata := by
  obtain ⟨closed, pts, hs, -, -, hp, hb⟩ := lwpolylineShape_eq_ok.mp h
  have hx : (Added.raw ⟨p, style⟩).xdata = raw.xdata := by
    simp [Added.raw, hs, Shape.raw]
  refine ⟨lwpolylineShape_eq_ok.mpr ⟨closed, pts, ?_, ?_, ?_, ?_, hb⟩, hx⟩
  · rw [hx, hs]
  · simp [Added.raw, hs, Shape.raw, blank]
  · simp [Added.raw, hs, Shape.raw]
  · simp only [Added.raw, hs]
    exact (points_raw _).mpr ⟨length_of_points hp, bounded_of_points hp, rfl⟩

lemma lineShape_again (h : lineShape 0 handle raw = .ok p.shape) :
    lineShape 0 handle (Added.raw ⟨p, style⟩) = .ok p.shape ∧ (Added.raw ⟨p, style⟩).xdata = none := by
  obtain ⟨a, b, hs, -, -, hp, hne, hb⟩ := lineShape_eq_ok.mp h
  have hx : (Added.raw ⟨p, style⟩).xdata = none := by
    simp [Added.raw, hs, Shape.raw, blank]
  refine ⟨lineShape_eq_ok.mpr ⟨a, b, hs, ?_, ?_, ?_, hne, hb⟩, hx⟩
  · simp [Added.raw, hs, Shape.raw, blank]
  · simp [Added.raw, hs, Shape.raw, blank]
  · simp only [Added.raw, hs]
    exact (points_raw [a, b]).mpr ⟨length_of_points hp, bounded_of_points hp, rfl⟩

lemma circleShape_again (h : circleShape handle raw = .ok p.shape) :
    circleShape handle (Added.raw ⟨p, style⟩) = .ok p.shape ∧ (Added.raw ⟨p, style⟩).xdata = none := by
  obtain ⟨c, r, hs, hr, -⟩ := circleShape_eq_ok.mp h
  have hx : (Added.raw ⟨p, style⟩).xdata = none := by
    simp [Added.raw, hs, Shape.raw, blank]
  refine ⟨circleShape_eq_ok.mpr ⟨c, r, hs, hr.again hx ?_ ?_ ?_ ?_, ?_⟩, hx⟩ <;>
    simp [Added.raw, hs, Shape.raw, blank]

lemma arcShape_again (h : arcShape handle raw = .ok p.shape) :
    arcShape handle (Added.raw ⟨p, style⟩) = .ok p.shape ∧ (Added.raw ⟨p, style⟩).xdata = none := by
  obtain ⟨c, r, a, b, hs, hr, ha, hb, hsw⟩ := arcShape_eq_ok.mp h
  have hx : (Added.raw ⟨p, style⟩).xdata = none := by
    simp [Added.raw, hs, Shape.raw, blank]
  refine ⟨arcShape_eq_ok.mpr ⟨c, r, a, b, hs, hr.again hx ?_ ?_ ?_ ?_, ⟨?_, ha.2⟩,
    ⟨?_, hb.2⟩, hsw⟩, hx⟩ <;> simp [Added.raw, hs, Shape.raw, blank]

lemma shapeOf_again (h : shapeOf s 0 handle raw kind = .ok p.shape) :
    shapeOf s 0 handle (Added.raw ⟨p, style⟩) kind = .ok p.shape ↔
      (kind = .mleader → ∀ name, raw.style.bind (leaderSpelling s.intake) = some name → safeName name) ∧
      (kind = .dimension →
        LineSettled (measuredAlong s.arith raw ((spot (raw.def1.getD [])).rounded 3)
          ((spot (raw.def2.getD [])).rounded 3)) ((spot (raw.def2.getD [])).rounded 3)
          (spot (raw.dimline.getD []))) := by
  have hxd : ∀ {raw' : RawAdded}, raw'.xdata = none → checkXdata s.flags handle raw' = .ok () := by
    intro raw' hn
    exact checkXdata_eq_ok.mpr (.inl hn)
  cases kind with
  | mleader => simpa [shapeOf] using mleaderShape_again style h
  | insert => simpa [shapeOf] using insertShape_again style h
  | dimension => simpa [shapeOf] using dimensionShape_again style h
  | lwpolyline =>
    simp only [shapeOf, bind_eq_ok] at h ⊢
    obtain ⟨⟨⟩, hx, h⟩ := h
    obtain ⟨hs, hsm⟩ := lwpolylineShape_again style h
    refine iff_of_true ⟨(), ?_, hs⟩ (by simp)
    rw [checkXdata_eq_ok] at hx ⊢
    rwa [hsm]
  | line =>
    simp only [shapeOf, bind_eq_ok] at h ⊢
    obtain ⟨-, -, h⟩ := h
    obtain ⟨hs, hn⟩ := lineShape_again style h
    exact iff_of_true ⟨(), hxd hn, hs⟩ (by simp)
  | circle =>
    simp only [shapeOf, bind_eq_ok] at h ⊢
    obtain ⟨-, -, h⟩ := h
    obtain ⟨hs, hn⟩ := circleShape_again style h
    exact iff_of_true ⟨(), hxd hn, hs⟩ (by simp)
  | arc =>
    simp only [shapeOf, bind_eq_ok] at h ⊢
    obtain ⟨-, -, h⟩ := h
    obtain ⟨hs, hn⟩ := arcShape_again style h
    exact iff_of_true ⟨(), hxd hn, hs⟩ (by simp)

def Shape.addKind : Shape → AddKind
  | .lwpolyline .. => .lwpolyline
  | .line .. => .line
  | .circle .. => .circle
  | .arc .. => .arc
  | .insert .. => .insert
  | .linear .. => .dimension
  | .aligned .. => .dimension
  | .mleader .. => .mleader

lemma ofName_raw (shape : Shape) : AddKind.ofName (shape.raw.kind.getD "LWPOLYLINE") = some shape.addKind := by
  cases shape <;> simp [raw, blank, AddKind.ofName, addKind]

lemma kind_of_shapeOf {shape : Shape} (h : shapeOf s 0 handle raw kind = .ok shape) : shape.addKind = kind := by
  cases kind with
  | mleader =>
    obtain ⟨_, _, _, _, _, rfl, -⟩ := mleaderShape_eq_ok.mp h
    rfl
  | insert =>
    obtain ⟨_, _, _, _, rfl, -⟩ := insertShape_eq_ok.mp h
    rfl
  | dimension =>
    obtain ⟨_, _, _, _, _, _, _, -, hm, -, -, rfl⟩ := dimensionShape_eq_ok.mp h
    cases hm <;> rfl
  | lwpolyline | line | circle =>
    simp only [shapeOf, bind_eq_ok, lwpolylineShape_eq_ok, lineShape_eq_ok, circleShape_eq_ok] at h
    obtain ⟨-, -, _, _, rfl, -⟩ := h
    rfl
  | arc =>
    simp only [shapeOf, bind_eq_ok, arcShape_eq_ok] at h
    obtain ⟨-, -, _, _, _, _, rfl, -⟩ := h
    rfl

end

variable {style : Style} {layer : String}

lemma fieldsFit_raw (a : Added) (h : a.shape.raw.kind = some "MLEADER" → a.style = .plain) : FieldsFit a.raw := by
  obtain ⟨⟨handle, layer, shape⟩, ⟨color, linetype, lineweight⟩⟩ := a
  refine ⟨?_, ?_, ?_⟩
  · rintro ⟨-, hall⟩
    have hl := hall "layer" (by simp [mem_fields, entries, Added.raw])
    simp at hl
  · rintro ⟨hk, field, hfl, hm⟩
    obtain ⟨rfl, rfl, rfl⟩ : color = none ∧ linetype = none ∧ lineweight = none := by
      simpa [Style.plain] using h hk
    cases shape with
    | mleader st p q t =>
      simp only [styleFields, List.mem_cons, List.not_mem_nil, or_false] at hfl
      rcases hfl with rfl | rfl | rfl <;> simp [mem_fields, entries, Added.raw] at hm
    | _ => simp [Added.raw, raw, blank] at hk
  · rintro ⟨field, hf, ha, hs⟩
    simp only [styleFields] at hs
    cases shape <;>
      simp_all [Added.raw, raw, blank, mem_fields, entries, allowedFields,
        addedFields, insertFields, dimensionFields, mleaderFields]

lemma Adds.style_plain (h : Adds s raw p kind layer)
    (hs : styleOf known raw = .ok style) (hk : p.shape.raw.kind = some "MLEADER") : style = .plain := by
  have hml : kind = .mleader :=
    (kind_of_shapeOf h.shape).symm.trans (((ofKind_name (ofName_raw p.shape)).2.2.1).mp hk)
  obtain ⟨hc, hl, hw⟩ := h.fields.plain (((ofKind_name h.ofKind).2.2.1).mpr hml)
  rw [styleOf_eq_ok, hc, hl, hw] at hs
  obtain ⟨hc', hl', hw'⟩ := hs
  obtain ⟨color, linetype, lineweight⟩ := style
  rw [perhaps_none] at hc' hl' hw'
  subst hc' hl' hw'
  rfl

lemma layerFor_again (intake : Intake) (layer : String) (kind : AddKind) :
    layerFor intake (layerFor intake layer kind) kind = layerFor intake layer kind := by
  cases kind with
  | mleader | insert | dimension => exact canonicalizeLayer_again layer intake.layers
  | _ => rfl

lemma safe_layerFor {intake : Intake} (hsf : safeName layer) :
    safeName (layerFor intake layer kind) ↔
      ((kind = .insert ∨ kind = .dimension ∨ kind = .mleader) →
        SpeltSafely (intake.layers.getD []) (some layer)) := by
  have hsp : safeName (canonicalizeLayer layer intake.layers) ↔
      SpeltSafely (intake.layers.getD []) (some layer) := by
    unfold canonicalizeLayer
    cases hs : spelling (intake.layers.getD []) layer with
    | none => simp [SpeltSafely, hs, hsf]
    | some spelt => rw [getD_some, speltSafely_some hs]
  cases kind <;> simp [layerFor, hsp, hsf]

lemma adds_again (h : Adds s raw p kind layer) (hst : styleOf (knownLinetypes s.intake) raw = .ok style) :
    ((∃ kind layer, Adds s (Added.raw ⟨p, style⟩) p kind layer) ∧
      styleOf (knownLinetypes s.intake) (Added.raw ⟨p, style⟩) = .ok style) ↔
        AddedSettled s.arith s.intake raw := by
  have hof : AddKind.ofName ((Added.raw ⟨p, style⟩).kind.getD "LWPOLYLINE") = some kind :=
    (ofName_raw p.shape).trans (congrArg some (kind_of_shapeOf h.shape))
  obtain ⟨hv3, hd, hml, -⟩ := ofKind_name h.ofKind
  have hl : safeName p.layer ↔ (raw.kind ∈ [some "INSERT", some "DIMENSION", some "MLEADER"] →
      SpeltSafely (s.intake.layers.getD []) raw.layer) := by
    rw [h.placed, hv3, h.onLayer]
    exact safe_layerFor h.named
  rw [styleOf_again hst]
  constructor
  · rintro ⟨⟨kind', layer', ha⟩, hln⟩
    obtain rfl : kind' = kind := mem_unique ha.ofKind hof
    have hsm : some p.layer = some layer' := ha.onLayer
    obtain ⟨hld, hli⟩ := (shapeOf_again style h.shape).mp ha.shape
    refine ⟨hl.mp ?_, fun hk => hld (hml.mp hk), fun hk => hli (hd.mp hk), hln⟩
    rw [some.inj hsm]
    exact ha.named
  · intro hs
    refine ⟨⟨kind, p.layer, ?_⟩, hs.linetype⟩
    exact
      { fields := fieldsFit_raw _ (h.style_plain hst)
        handle := rfl
        safe := h.safe
        fresh := h.fresh
        ofKind := hof
        onLayer := rfl
        named := hl.mpr hs.layer
        placed := by rw [h.placed, layerFor_again]
        shape :=
          (shapeOf_again style h.shape).mpr ⟨fun hk => hs.leader (hml.mpr hk), fun hk => hs.line (hd.mpr hk)⟩ }

end LeafWeb.Mutation
