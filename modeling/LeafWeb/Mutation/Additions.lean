import LeafWeb.Mutation.Accepted

namespace LeafWeb.Mutation

open Lib Option List Prod

variable {intake : Intake} {total : ℕ} {handle text : String} {raw : RawAdded} {shape : Shape}
  {style name : String} {pts : Option (List (List ℚ))} {p q scale c : Pt} {v : Option String}

lemma mleaderStyle_eq_ok :
    mleaderStyle intake style = .ok name ↔
      (intake.mlstyles = none ∧ name = style) ∨
        ∃ catalogue entry, intake.mlstyles = some catalogue ∧
          (catalogue.find? fun item => item.name.any fun n => lowerText n = lowerText style) =
            some entry ∧ entry.segments = some 1 ∧ entry.name = some name := by
  unfold mleaderStyle
  cases hm : intake.mlstyles with
  | none => simp [eq_comm]
  | some catalogue =>
    simp only [bind_demand, bind_refuse, not_not, reduceCtorEq, false_and, false_or,
      some.injEq, exists_and_left, exists_eq_left']
    refine exists_congr fun entry => and_congr_right fun hf => and_congr_right fun _ => ?_
    have hn := find?_some hf
    cases he : entry.name with
    | none => simp [he] at hn
    | some n => simp

lemma mleaderStyle_again (h : mleaderStyle intake style = .ok name) : mleaderStyle intake name = .ok name := by
  rw [mleaderStyle_eq_ok] at h ⊢
  rcases h with ⟨hm, rfl⟩ | ⟨catalogue, entry, hm, hf, hs, hn⟩
  · exact .inl ⟨hm, rfl⟩
  have hl := find?_some hf
  simp only [hn, any_some, decide_eq_true_eq] at hl
  rw [← hl] at hf
  exact .inr ⟨catalogue, entry, hm, hf, hs, hn⟩

lemma twoPoints_eq_ok :
    twoPoints pts = .ok (p, q) ↔
      ∃ a b p' q', pts = some [a, b] ∧ point3 (some a) "" = .ok p' ∧ point3 (some b) "" = .ok q' ∧
        p'.rounded 3 = p ∧ q'.rounded 3 = q := by
  rcases pts with _ | ⟨_ | ⟨a, _ | ⟨b, _ | ⟨c, l⟩⟩⟩⟩
  · simp [twoPoints]
  · simp [twoPoints]
  · simp [twoPoints]
  · simp only [twoPoints, bind_eq_ok, pure_eq_ok, mk.injEq, some.injEq, cons.injEq, and_true]
    constructor
    · rintro ⟨p', hp, q', hq, rfl, rfl⟩
      exact ⟨a, b, p', q', ⟨rfl, rfl⟩, (point3_field _ _).mp hp, (point3_field _ _).mp hq, rfl, rfl⟩
    · rintro ⟨_, _, p', q', ⟨rfl, rfl⟩, hp, hq, rfl, rfl⟩
      exact ⟨p', (point3_field _ _).mp hp, q', (point3_field _ _).mp hq, rfl, rfl⟩
  · simp [twoPoints]

lemma twoPoints_again (h : twoPoints pts = .ok (p, q)) : twoPoints (some [p.raw, q.raw]) = .ok (p, q) := by
  obtain ⟨a, b, p', q', -, hp, hq, rfl, rfl⟩ := twoPoints_eq_ok.mp h
  refine twoPoints_eq_ok.mpr ⟨_, _, _, _, rfl, point3_raw.mpr ⟨?_, rfl⟩, point3_raw.mpr ⟨?_, rfl⟩,
    Pt.rounded_rounded 3 p', Pt.rounded_rounded 3 q'⟩
  · exact (bounded_of_point3 hp).rounded 3
  · exact (bounded_of_point3 hq).rounded 3

def LeaderText (text : String) : Prop :=
  text = strip text ∧ (1 ≤ text.length ∧ text.length ≤ 256) ∧ text.toList.all mleaderChar

lemma mleaderText_eq_ok : mleaderText v = .ok text ↔ v = some text ∧ LeaderText text := by
  simp only [mleaderText, bind_demand, bind_refuse, pure_eq_ok, not_not]
  constructor
  · rintro ⟨_, rfl, hs, hl, hc, rfl⟩
    exact ⟨rfl, hs, hl, hc⟩
  · rintro ⟨rfl, hs, hl, hc⟩
    exact ⟨text, rfl, hs, hl, hc, rfl⟩

lemma mleaderShape_eq_ok :
    mleaderShape intake total raw = .ok shape ↔
      ∃ named style p q text, shape = .mleader style p q text ∧ raw.style = some named ∧
        safeName named ∧ mleaderStyle intake named = .ok style ∧ twoPoints raw.pts = .ok (p, q) ∧
        (p.z = 0 ∧ q.z = 0) ∧ p ≠ q ∧ (raw.text = some text ∧ LeaderText text) ∧
        total + 2 ≤ maxPoints := by
  simp only [mleaderShape, bind_eq_ok, safe_eq_ok, Prod.exists, refuse_eq_ok, exists_const,
    mleaderText_eq_ok, boundPoints, pure_eq_ok, not_or, not_not, not_lt]
  constructor
  · rintro ⟨named, ⟨hn, hs⟩, style, hst, p, q, hpq, hz, hne, text, ht, hb, rfl⟩
    exact ⟨named, style, p, q, text, rfl, hn, hs, hst, hpq, hz, hne, ht, hb⟩
  · rintro ⟨named, style, p, q, text, rfl, hn, hs, hst, hpq, hz, hne, ht, hb⟩
    exact ⟨named, ⟨hn, hs⟩, style, hst, p, q, hpq, hz, hne, text, ht, hb, rfl⟩

def BlockNamed (name : String) : Prop :=
  ¬(name = "" ∨ 255 < name.length ∨ '|' ∈ name.toList ∨ '\r' ∈ name.toList ∨ '\n' ∈ name.toList) ∧
    name.toList.head? ≠ some '*' ∧ name.toList.all printable

lemma blockName_eq_ok : blockName v = .ok name ↔ v = some name ∧ BlockNamed name := by
  simp only [blockName, bind_demand, bind_refuse, pure_eq_ok]
  constructor
  · rintro ⟨_, rfl, hs, hst, ha, rfl⟩
    exact ⟨rfl, hs, hst, not_not.mp ha⟩
  · rintro ⟨rfl, hs, hst, ha⟩
    exact ⟨name, rfl, hs, hst, not_not.mpr ha, rfl⟩

lemma threeScales_eq_ok {v : Option (List ℚ)} :
    threeScales v handle = .ok scale ↔ ∃ p : Pt, v = some p.raw ∧ p.Bounded ∧ p.rounded 4 = scale := by
  rcases v with _ | ⟨_ | ⟨a, _ | ⟨b, _ | ⟨c, _ | ⟨d, l⟩⟩⟩⟩⟩
  · simp [threeScales]
  · simp [threeScales, Pt.raw]
  · simp [threeScales, Pt.raw]
  · simp [threeScales, Pt.raw]
  · simp only [threeScales, bind_eq_ok, number_eq_ok, pure_eq_ok, some.injEq, Pt.raw, cons.injEq, and_true]
    constructor
    · rintro ⟨_, ⟨rfl, ha⟩, _, ⟨rfl, hb⟩, _, ⟨rfl, hc⟩, rfl⟩
      exact ⟨⟨a, b, c⟩, ⟨rfl, rfl, rfl⟩, ⟨ha, hb, hc⟩, rfl⟩
    · rintro ⟨p, ⟨rfl, rfl, rfl⟩, ⟨ha, hb, hc⟩, rfl⟩
      exact ⟨_, ⟨rfl, ha⟩, _, ⟨rfl, hb⟩, _, ⟨rfl, hc⟩, rfl⟩
  · simp [threeScales, Pt.raw]

lemma wrapped_range (r : ℚ) : 0 ≤ wrapped r ∧ wrapped r < 360 :=
  ⟨floorMod_nonneg _ (by norm_num), floorMod_lt _ (by norm_num)⟩

lemma wrapped_places (r : ℚ) : roundTo 6 (wrapped r) = wrapped r := by
  have hl : 0 ≤ floorMod r 360 := floorMod_nonneg _ (by norm_num)
  have hh : floorMod r 360 < 360 := floorMod_lt _ (by norm_num)
  have hr : |roundTo 6 (floorMod r 360)| ≤ ((360 : ℕ) : ℚ) := by
    apply abs_roundTo_le
    rw [abs_of_nonneg hl]
    exact_mod_cast hh.le
  have hn : 0 ≤ roundTo 6 (floorMod r 360) := by
    have h : (0 : ℤ) ≤ roundEven (floorMod r 360 * 10 ^ 6) := by
      apply le_roundEven
      positivity
    have h' : (0 : ℚ) ≤ (roundEven (floorMod r 360 * 10 ^ 6) : ℚ) := by exact_mod_cast h
    exact div_nonneg h' (by positivity)
  rw [abs_of_nonneg hn] at hr
  unfold wrapped
  rcases hr.lt_or_eq with hlt | heq
  · rw [floorMod_of_lt hn (by exact_mod_cast hlt), roundTo_roundTo]
  · have hf : floorMod (roundTo 6 (floorMod r 360)) 360 = 0 := by
      rw [heq]
      norm_num [floorMod]
    rw [hf, roundTo_zero]

@[simp] lemma wrapped_wrapped (r : ℚ) : wrapped (wrapped r) = wrapped r := by
  obtain ⟨hl, hh⟩ := wrapped_range r
  have hu : wrapped (wrapped r) = floorMod (roundTo 6 (floorMod (wrapped r) 360)) 360 := rfl
  rw [hu, floorMod_of_lt hl hh, wrapped_places, floorMod_of_lt hl hh]

structure Inserts (intake : Intake) (declared : List String) (handle : String) (raw : RawAdded)
    (name : String) (pt : Pt) (rot : ℚ) (scale : Pt) : Prop where
  named : raw.name = some name ∧ BlockNamed name
  defined : definedBlock intake declared name = .ok ()
  length : raw.pt.map length = some 3
  point : point3 raw.pt "" = .ok pt
  turned : raw.rot = some rot
  scaled : threeScales raw.scale handle = .ok scale
  nonzero : ¬(scale.x = 0 ∨ scale.y = 0 ∨ scale.z = 0)
  fresh : ¬∃ e ∈ intake.rows .inserts, e.handle = some handle

lemma insertShape_eq_ok {declared : List String} :
    insertShape intake declared total handle raw = .ok shape ↔
      ∃ name pt rot scale, shape = .insert name (pt.rounded 3) (wrapped rot) scale ∧
        Inserts intake declared handle raw name pt rot scale ∧ total + 1 ≤ maxPoints := by
  simp only [insertShape, bind_eq_ok, blockName_eq_ok, refuse_eq_ok, exists_const, demand_eq_ok,
    boundPoints, pure_eq_ok, not_not, not_lt]
  constructor
  · rintro ⟨name, hn, ⟨⟩, hd, hl, pt, hpt, rot, hr, scale, hs, hnz, hf, hb, rfl⟩
    exact ⟨name, pt, rot, scale, rfl, ⟨hn, hd, hl, (point3_field _ _).mp hpt, hr, hs, hnz, hf⟩, hb⟩
  rintro ⟨name, pt, rot, scale, rfl, h, hb⟩
  exact ⟨name, h.named, (), h.defined, h.length, pt, (point3_field _ _).mp h.point, rot, h.turned,
    scale, h.scaled, h.nonzero, h.fresh, hb, rfl⟩

lemma dimensionStyle_eq_ok :
    dimensionStyle intake v = .ok style ↔
      v = some style ∧ safeName style ∧ style ∈ intake.dimstyles.getD ["Standard"] := by
  simp only [dimensionStyle, bind_eq_ok, safe_eq_ok, refuse_eq_ok, exists_const, pure_eq_ok, not_not]
  constructor
  · rintro ⟨_, ⟨rfl, hs⟩, hst, rfl⟩
    exact ⟨rfl, hs, hst⟩
  · rintro ⟨rfl, hs, hst⟩
    exact ⟨style, ⟨rfl, hs⟩, hst, rfl⟩

lemma agreesWith_self (A : Arith) (m : ℚ) : agreesWith A m (some m) = .ok () := by
  simp [agreesWith, dimensionMeasurementTolerance]

structure DimensionPoints (raw : RawAdded) (def1 def2 submitted : Pt) : Prop where
  first : ∃ p, point3 raw.def1 "" = .ok p ∧ p.rounded 3 = def1
  second : ∃ p, point3 raw.def2 "" = .ok p ∧ p.rounded 3 = def2
  apart : def1 ≠ def2
  line : point3 raw.dimline "" = .ok submitted
  planar : def1.z = 0 ∧ def2.z = 0 ∧ roundTo 3 submitted.z = 0

inductive Measures (A : Arith) (raw : RawAdded) (def1 def2 : Pt) :
    (ℚ × ℚ) → ℚ → (Pt → String → Shape) → Prop
  | linear (rotation : ℚ) (hraw : raw.rotation = some rotation) (hkind : raw.dimtype = some "LINEAR") :
    Measures A raw def1 def2 (A.turned (wrapped rotation))
      (roundTo 3 |(def2.x - def1.x) * (A.turned (wrapped rotation)).1 +
        (def2.y - def1.y) * (A.turned (wrapped rotation)).2|)
      (fun dimline style => .linear def1 def2 dimline style
        (roundTo 3 |(def2.x - def1.x) * (A.turned (wrapped rotation)).1 +
          (def2.y - def1.y) * (A.turned (wrapped rotation)).2|) (wrapped rotation))
  | aligned (hraw : raw.rotation = none) (hkind : raw.dimtype = some "ALIGNED")
    (hlong : ¬A.sqrt ((def2.x - def1.x) * (def2.x - def1.x) +
      (def2.y - def1.y) * (def2.y - def1.y)) ≤ planarTolerance) :
    Measures A raw def1 def2 (A.towards (def2.x - def1.x) (def2.y - def1.y))
      (roundTo 3 (A.sqrt ((def2.x - def1.x) * (def2.x - def1.x) +
        (def2.y - def1.y) * (def2.y - def1.y) + (def2.z - def1.z) * (def2.z - def1.z))))
      (fun dimline style => .aligned def1 def2 dimline style
        (roundTo 3 (A.sqrt ((def2.x - def1.x) * (def2.x - def1.x) +
          (def2.y - def1.y) * (def2.y - def1.y) + (def2.z - def1.z) * (def2.z - def1.z)))))

lemma dimTypeOf_linear : DimType.ofName name = some .linear ↔ name = "LINEAR" := by
  unfold DimType.ofName
  split_ifs with h h' <;> simp [h]

lemma dimTypeOf_aligned : DimType.ofName name = some .aligned ↔ name = "ALIGNED" := by
  unfold DimType.ofName
  split_ifs with h h'
  · subst h
    simp
  all_goals simp [h']

lemma dimensionShape_eq_ok {A : Arith} :
    dimensionShape A intake handle raw = .ok shape ↔
      ∃ def1 def2 submitted axis measurement make style,
        DimensionPoints raw def1 def2 submitted ∧ Measures A raw def1 def2 axis measurement make ∧
        dimensionStyle intake raw.style = .ok style ∧
        agreesWith A measurement raw.measurement = .ok () ∧
        shape = make (dimensionLine axis def1 def2 submitted) style := by
  simp only [dimensionShape, bind_eq_ok, demand_eq_ok, refuse_eq_ok, exists_const, not_or, not_not]
  constructor
  · rintro ⟨dimtype, ht, p, hp, q, hq, hne, submitted, hsub, hpl, hsh⟩
    have hpts : DimensionPoints raw (p.rounded 3) (q.rounded 3) submitted :=
      ⟨⟨p, (point3_field _ _).mp hp, rfl⟩, ⟨q, (point3_field _ _).mp hq, rfl⟩, hne,
        (point3_field _ _).mp hsub, hpl⟩
    obtain ⟨name, hn, hof⟩ := bind_eq_some_iff.mp ht
    cases dimtype with
    | linear =>
      simp only [bind_eq_ok, demand_eq_ok, pure_eq_ok] at hsh
      obtain ⟨rotation, hr, style, hs, ⟨⟩, ha, rfl⟩ := hsh
      rw [dimTypeOf_linear.mp hof] at hn
      exact ⟨_, _, _, _, _, _, style, hpts, .linear rotation hr hn, hs, ha, rfl⟩
    | aligned =>
      simp only [bind_eq_ok, refuse_eq_ok, exists_const, pure_eq_ok, not_not] at hsh
      obtain ⟨hr, hl, style, hs, ⟨⟩, ha, rfl⟩ := hsh
      rw [dimTypeOf_aligned.mp hof] at hn
      exact ⟨_, _, _, _, _, _, style, hpts, .aligned hr hn hl, hs, ha, rfl⟩
  · rintro ⟨def1, def2, submitted, axis, measurement, make, style, hpts, hm, hs, ha, rfl⟩
    obtain ⟨⟨p, hp, rfl⟩, ⟨q, hq, rfl⟩, hne, hsub, hpl⟩ := hpts
    cases hm with
    | linear rotation hr hn =>
      refine ⟨.linear, ?_, p, (point3_field _ _).mp hp, q, (point3_field _ _).mp hq, hne, submitted,
        (point3_field _ _).mp hsub, hpl, ?_⟩
      · rw [hn, bind_some, dimTypeOf_linear]
      · simp only [bind_eq_ok, demand_eq_ok]
        exact ⟨rotation, hr, style, hs, (), ha, rfl⟩
    | aligned hr hn hl =>
      refine ⟨.aligned, ?_, p, (point3_field _ _).mp hp, q, (point3_field _ _).mp hq, hne, submitted,
        (point3_field _ _).mp hsub, hpl, ?_⟩
      · rw [hn, bind_some, dimTypeOf_aligned]
      · simp only [bind_eq_ok, refuse_eq_ok, exists_const, not_not]
        exact ⟨hr, hl, style, hs, (), ha, rfl⟩

lemma lwpolylineShape_eq_ok :
    lwpolylineShape total handle raw = .ok shape ↔
      ∃ closed pts, shape = .lwpolyline closed pts raw.xdata ∧
        ¬(raw.c ≠ none ∨ raw.r ≠ none ∨ raw.startDeg ≠ none ∨ raw.endDeg ≠ none) ∧
        raw.closed = some closed ∧ points raw.pts "" (if closed then 3 else 2) = .ok pts ∧
        total + pts.length ≤ maxPoints := by
  simp only [lwpolylineShape, bind_eq_ok, refuse_eq_ok, exists_const, demand_eq_ok, boundPoints,
    pure_eq_ok, not_lt]
  constructor
  · rintro ⟨hf, closed, hc, pts, hp, hb, rfl⟩
    exact ⟨closed, pts, rfl, hf, hc, (points_field _ _).mp hp, hb⟩
  · rintro ⟨closed, pts, rfl, hf, hc, hp, hb⟩
    exact ⟨hf, closed, hc, pts, (points_field _ _).mp hp, hb, rfl⟩

lemma lineShape_eq_ok :
    lineShape total handle raw = .ok shape ↔
      ∃ p q, shape = .line p q ∧ ¬(raw.xdata ≠ none ∨ raw.closed ≠ none) ∧
        ¬(raw.c ≠ none ∨ raw.r ≠ none ∨ raw.startDeg ≠ none ∨ raw.endDeg ≠ none) ∧
        points raw.pts "" 2 = .ok [p, q] ∧ p ≠ q ∧ total + 2 ≤ maxPoints := by
  simp only [lineShape, bind_eq_ok, refuse_eq_ok, exists_const]
  constructor
  · rintro ⟨hp, hf, pts, hpts, h⟩
    rcases pts with _ | ⟨p, _ | ⟨q, _ | ⟨r, pts⟩⟩⟩
    · simp at h
    · simp at h
    · simp only [bind_eq_ok, refuse_eq_ok, exists_const, boundPoints, pure_eq_ok, not_lt] at h
      obtain ⟨hne, hb, rfl⟩ := h
      exact ⟨p, q, rfl, hp, hf, (points_field _ _).mp hpts, hne, hb⟩
    · simp at h
  · rintro ⟨p, q, rfl, hp, hf, hpts, hne, hb⟩
    refine ⟨hp, hf, [p, q], (points_field _ _).mp hpts, ?_⟩
    simp only [bind_eq_ok, refuse_eq_ok, exists_const, boundPoints, pure_eq_ok, not_lt]
    exact ⟨hne, hb, trivial⟩

structure Rounds (raw : RawAdded) (c : Pt) (r : ℚ) : Prop where
  plain : ¬(raw.xdata ≠ none ∨ raw.closed ≠ none)
  pts : raw.pts = none
  centre : point3 raw.c "" = .ok c
  radius : raw.r = some r
  radius_le : |r| ≤ maxCoordinate
  positive : ¬r ≤ 0

lemma roundGeometry_eq_ok {r : ℚ} : roundGeometry handle raw = .ok (c, r) ↔ Rounds raw c r := by
  simp only [roundGeometry, bind_eq_ok, refuse_eq_ok, exists_const, number_eq_ok, pure_eq_ok, mk.injEq]
  constructor
  · rintro ⟨hp, hpts, _, hc, _, ⟨hr, hr'⟩, hpos, rfl, rfl⟩
    exact ⟨hp, not_not.mp hpts, (point3_field _ _).mp hc, hr, hr', hpos⟩
  · rintro ⟨hp, hpts, hc, hr, hr', hpos⟩
    exact ⟨hp, not_not.mpr hpts, c, (point3_field _ _).mp hc, r, ⟨hr, hr'⟩, hpos, rfl, rfl⟩

lemma circleShape_eq_ok :
    circleShape handle raw = .ok shape ↔
      ∃ c r, shape = .circle c r ∧ Rounds raw c r ∧ ¬(raw.startDeg ≠ none ∨ raw.endDeg ≠ none) := by
  simp only [circleShape, bind_eq_ok, Prod.exists, roundGeometry_eq_ok, refuse_eq_ok, exists_const, pure_eq_ok]
  constructor
  · rintro ⟨c, r, h, hf, rfl⟩
    exact ⟨c, r, rfl, h, hf⟩
  · rintro ⟨c, r, rfl, h, hf⟩
    exact ⟨c, r, h, hf, rfl⟩

lemma arcShape_eq_ok :
    arcShape handle raw = .ok shape ↔
      ∃ c r s e, shape = .arc c r s e ∧ Rounds raw c r ∧ (raw.startDeg = some s ∧ |s| ≤ maxAngleDeg) ∧
        (raw.endDeg = some e ∧ |e| ≤ maxAngleDeg) ∧ ¬noSweep s e := by
  simp only [arcShape, bind_eq_ok, Prod.exists, roundGeometry_eq_ok, number_eq_ok, refuse_eq_ok,
    exists_const, pure_eq_ok]
  constructor
  · rintro ⟨c, r, h, s, hs, e, he, hsw, rfl⟩
    exact ⟨c, r, s, e, rfl, h, hs, he, hsw⟩
  · rintro ⟨c, r, s, e, rfl, h, hs, he, hsw⟩
    exact ⟨c, r, h, s, hs, e, he, hsw, rfl⟩

lemma checkXdata_eq_ok {flags : Flags} : checkXdata flags handle raw = .ok () ↔
    (raw.xdata = none ∨ flags.allowXdata = true) := by
  simp [checkXdata, imp_iff_not_or]

lemma shapeOf_total {kind : AddKind} {s : Setting} :
    shapeOf s total handle raw kind = .ok shape ↔
      shapeOf s 0 handle raw kind = .ok shape ∧ (shape.points = 0 ∨ total + shape.points ≤ maxPoints) := by
  cases kind with
  | mleader =>
    simp only [shapeOf, mleaderShape_eq_ok]
    constructor
    · rintro ⟨named, style, p, q, text, rfl, hn, hs, hst, hpq, hz, hne, ht, hb⟩
      exact ⟨⟨named, style, p, q, text, rfl, hn, hs, hst, hpq, hz, hne, ht, by omega⟩, .inr hb⟩
    rintro ⟨⟨named, style, p, q, text, rfl, hn, hs, hst, hpq, hz, hne, ht, -⟩, hb⟩
    simp only [Shape.points, OfNat.ofNat_ne_zero, false_or] at hb
    exact ⟨named, style, p, q, text, rfl, hn, hs, hst, hpq, hz, hne, ht, hb⟩
  | insert =>
    simp only [shapeOf, insertShape_eq_ok]
    constructor
    · rintro ⟨name, pt, rot, scale, rfl, h, hb⟩
      exact ⟨⟨name, pt, rot, scale, rfl, h, by omega⟩, .inr hb⟩
    rintro ⟨⟨name, pt, rot, scale, rfl, h, -⟩, hb⟩
    simp only [Shape.points, one_ne_zero, false_or] at hb
    exact ⟨name, pt, rot, scale, rfl, h, hb⟩
  | dimension =>
    simp only [shapeOf, dimensionShape_eq_ok]
    constructor
    · intro h
      obtain ⟨_, _, _, _, _, _, _, _, hm, _, _, rfl⟩ := id h
      exact ⟨h, by cases hm <;> exact .inl rfl⟩
    · exact fun h => h.1
  | lwpolyline =>
    simp only [shapeOf, bind_eq_ok, lwpolylineShape_eq_ok]
    constructor
    · rintro ⟨u, hx, closed, pts, rfl, hf, hc, hpts, hb⟩
      exact ⟨⟨u, hx, closed, pts, rfl, hf, hc, hpts, by omega⟩, .inr hb⟩
    rintro ⟨⟨u, hx, closed, pts, rfl, hf, hc, hpts, -⟩, hb⟩
    have hl := (length_of_points hpts).1
    refine ⟨u, hx, closed, pts, rfl, hf, hc, hpts, hb.resolve_left ?_⟩
    simp only [Shape.points]
    split at hl <;> omega
  | line =>
    simp only [shapeOf, bind_eq_ok, lineShape_eq_ok]
    constructor
    · rintro ⟨u, hx, p, q, rfl, hp, hf, hpts, hne, hb⟩
      exact ⟨⟨u, hx, p, q, rfl, hp, hf, hpts, hne, by omega⟩, .inr hb⟩
    rintro ⟨⟨u, hx, p, q, rfl, hp, hf, hpts, hne, -⟩, hb⟩
    simp only [Shape.points, OfNat.ofNat_ne_zero, false_or] at hb
    exact ⟨u, hx, p, q, rfl, hp, hf, hpts, hne, hb⟩
  | circle =>
    simp only [shapeOf, bind_eq_ok, circleShape_eq_ok]
    constructor
    · rintro ⟨u, hx, c, r, rfl, h, hf⟩
      exact ⟨⟨u, hx, c, r, rfl, h, hf⟩, .inl rfl⟩
    · exact fun h => h.1
  | arc =>
    simp only [shapeOf, bind_eq_ok, arcShape_eq_ok]
    constructor
    · rintro ⟨u, hx, c, r, a, b, rfl, h⟩
      exact ⟨⟨u, hx, c, r, a, b, rfl, h⟩, .inl rfl⟩
    · exact fun h => h.1

lemma mem_fields : name ∈ raw.fields ↔ (name, true) ∈ raw.entries := by
  simp [RawAdded.fields]

def FieldsFit (raw : RawAdded) : Prop :=
  ¬(raw.kind = some "INSERT" ∧ ∀ field ∈ raw.fields, field ∈ ["kind", "handle", "name"]) ∧
  ¬(raw.kind = some "MLEADER" ∧ ∃ field ∈ styleFields, field ∈ raw.fields) ∧
  ¬∃ field ∈ raw.fields, field ∉ allowedFields raw.kind ∧ field ∉ styleFields

lemma FieldsFit.plain (h : FieldsFit raw) (hk : raw.kind = some "MLEADER") :
    raw.color = none ∧ raw.linetype = none ∧ raw.lineweight = none := by
  have ho : ∀ field ∈ styleFields, (field, true) ∉ raw.entries := by
    intro field hf hm
    exact h.2.1 ⟨hk, field, hf, mem_fields.mpr hm⟩
  have hc := ho "color" (by decide)
  have hln := ho "linetype" (by decide)
  have hl := ho "lineweight" (by decide)
  simp only [RawAdded.entries, mem_cons, mk.injEq, not_or, not_and, not_mem_nil,
    String.reduceEq, false_imp_iff, true_and, and_true, not_false_eq_true,
    eq_comm (a := true), Bool.not_eq_true, isSome_eq_false_iff, isNone_iff_eq_none]
    at hc hln hl
  exact ⟨hc, hln, hl⟩

structure Adds (s : Setting) (raw : RawAdded) (p : Placed) (kind : AddKind) (layer : String) : Prop where
  fields : FieldsFit raw
  handle : raw.handle = some p.handle
  safe : safeHandle p.handle
  fresh : s.index.get p.handle = none
  ofKind : AddKind.ofName (raw.kind.getD "LWPOLYLINE") = some kind
  onLayer : raw.layer = some layer
  named : safeName layer
  placed : p.layer = layerFor s.intake layer kind
  shape : shapeOf s 0 p.handle raw kind = .ok p.shape

end LeafWeb.Mutation
