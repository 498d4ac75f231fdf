import LeafWeb.CadEdit.Saved

namespace LeafWeb.CadEdit

open Lib List

lemma sameNumber_refl (a : ℚ) : sameNumber a a = true := by
  have h : (0 : ℚ) ≤ coordinateEpsilon * max 1 (max |a| |a|) := by
    have h1 : (0 : ℚ) ≤ max 1 (max |a| |a|) := le_trans zero_le_one (le_max_left _ _)
    exact mul_nonneg (by norm_num [coordinateEpsilon]) h1
  simpa [sameNumber] using h

lemma samePoint_refl (p : Point) : samePoint p p = true := by
  simp [samePoint, sameNumber_refl]

variable {α : Type} {same : α → α → Bool}

lemma allSame_refl (hr : ∀ a, same a a = true) (l : List α) : allSame same l l = true := by
  induction l with
  | nil => rfl
  | cons a l ih => simpa [allSame, hr a] using ih

lemma samePoints_refl (l : List Point) : samePoints l l = true := allSame_refl samePoint_refl l

lemma sameOption_refl (hr : ∀ a, same a a = true) (o : Option α) : sameOption same o o = true := by
  cases o with
  | none => rfl
  | some a => exact hr a

lemma sameAngle_refl (a : ℚ) : sameAngle a a = true := by
  have h : mathRound ((a - a) / 360) = 0 := by
    rw [sub_self, zero_div]
    decide +kernel
  rw [sameAngle, h, Int.cast_zero, mul_zero, sub_zero]
  exact sameNumber_refl a

lemma sameLook_refl (l : LeaderLook) : sameLook l l = true := by
  simp [sameLook, sameOption_refl samePoint_refl, sameOption_refl sameNumber_refl]

lemma sameShape_refl (s : Shape) : sameShape s s = true := by
  cases s <;>
    simp [sameShape, samePoint_refl, sameNumber_refl, samePoints_refl, sameAngle_refl, sameLook_refl,
      allSame_refl sameNumber_refl, sameOption_refl samePoint_refl, sameOption_refl samePoints_refl]

lemma sameProps_iff {t : JsText} {p q : Props} :
    sameProps t p q = true ↔ p.aci = q.aci ∧ p.trueColor = q.trueColor ∧
      t.lower p.linetype = t.lower q.linetype ∧ p.lineweight = q.lineweight := by
  simp [sameProps, and_assoc]

lemma sameProps_refl (t : JsText) (p : Props) : sameProps t p p = true := sameProps_iff.mpr ⟨rfl, rfl, rfl, rfl⟩

def Reads (e : Entity) : Geometry → Prop
  | .circle _ _ _ p => p = propsOf e
  | .arc _ _ _ _ _ p => p = propsOf e
  | .line _ pts p => p = propsOf e ∧ pts.length = 2
  | .polyline _ _ pts bulges curved p =>
    p = propsOf e ∧ bulges = bulgesOf e pts.length ∧ curved = curvedOf e pts.length
  | .insert p props => props = propsOf e ∧ p.point.z = 0
  | .dimension p => p.dimtype ≠ "LINEAR" → p.rotation = 0
  | .mleader pts p valid =>
    pts = mleaderPoints e ∧ p.vertices = e.vertices ∧ p.text = e.text ∧ p.style = e.style ∧
      p.props = propsOf e ∧ valid = mleaderValid e
  | .opaqueKind p => p.props = propsOf e

variable {e : Entity} {g : Geometry} {a : Linear}

lemma roundGeometry_reads (h : roundGeometry e = some g) : Reads e g := by
  simp only [roundGeometry, Option.bind_eq_bind, Option.bind_eq_some_iff] at h
  obtain ⟨c, -, r, -, h⟩ := h
  split_ifs at h
  · cases h
    rfl
  simp only [Option.bind_eq_some_iff] at h
  obtain ⟨s, -, u, -, h⟩ := h
  cases h
  rfl

lemma linearGeometry_reads (h : linearGeometry e = some g) : Reads e g := by
  simp only [linearGeometry, Option.bind_eq_bind, Option.bind_eq_some_iff] at h
  obtain ⟨pts, -, h⟩ := h
  split_ifs at h with _ hl
  · cases h
    exact ⟨rfl, hl⟩
  · cases h
    exact ⟨rfl, rfl, rfl⟩

lemma insertOf_reads (h : insertOf e = some g) : Reads e g := by
  unfold insertOf at h
  split_ifs at h
  simp only [Option.bind_eq_bind, Option.bind_eq_some_iff] at h
  obtain ⟨ip, -, rot, -, raw, -, scale, -, h⟩ := h
  split at h
  · split_ifs at h
    cases h
    exact ⟨rfl, rfl⟩
  · cases h

lemma dimensionOf_reads (h : dimensionOf e = some g) : Reads e g := by
  unfold dimensionOf at h
  split_ifs at h
  simp only [Option.bind_eq_bind, Option.bind_eq_some_iff] at h
  obtain ⟨dimtype, -, h⟩ := h
  split_ifs at h with hty hl
  · simp only [Option.bind_eq_some_iff] at h
    obtain ⟨rot, -, d1, -, d2, -, dl, -, h⟩ := h
    cases h
    intro hne
    exact (hne hl).elim
  · simp only [Option.bind_eq_some_iff] at h
    obtain ⟨rot, hr, d1, -, d2, -, dl, -, h⟩ := h
    cases h
    cases hr
    exact fun _ => rfl

lemma geometryOf_reads (h : geometryOf e = some g) : Reads e g := by
  simp only [geometryOf, Option.or_eq_some_iff] at h
  rcases h with ((h | ⟨-, h⟩) | ⟨-, h⟩) | ⟨-, h | ⟨-, h⟩⟩
  · unfold planGeometry at h
    split_ifs at h
    · exact roundGeometry_reads h
    · exact linearGeometry_reads h
  · exact insertOf_reads h
  · exact dimensionOf_reads h
  · unfold mleaderOf at h
    split_ifs at h
    cases h
    exact ⟨rfl, rfl, rfl, rfl, rfl, rfl⟩
  · unfold opaqueOf at h
    split_ifs at h
    cases h
    rfl

def Flat (bulges : List ℚ) : Prop := ∀ b ∈ bulges, |b| ≤ bulgeEps

lemma flat_straight (pts : List Point) : Flat (straight pts) := by
  intro b hb
  rw [eq_of_mem_replicate hb]
  norm_num [bulgeEps]

lemma sameNumber_of_flat {a b : ℚ} (ha : |a| ≤ bulgeEps) (hb : |b| ≤ bulgeEps) : sameNumber a b = true := by
  rw [sameNumber, decide_eq_true_eq]
  calc |a - b| ≤ |a| + |b| := abs_sub _ _
    _ ≤ bulgeEps + bulgeEps := add_le_add ha hb
    _ ≤ coordinateEpsilon * 1 := by norm_num [bulgeEps, coordinateEpsilon]
    _ ≤ coordinateEpsilon * max 1 (max |a| |b|) :=
      mul_le_mul_of_nonneg_left (le_max_left _ _) (by norm_num [coordinateEpsilon])

lemma allSame_of_flat {a b : List ℚ} (hl : a.length = b.length) (ha : Flat a) (hb : Flat b) :
    allSame sameNumber a b = true := by
  simp only [allSame, hl, decide_true, Bool.true_and, all_eq_true]
  rintro ⟨x, y⟩ hxy
  obtain ⟨hx, hy⟩ := of_mem_zip hxy
  exact sameNumber_of_flat (ha x hx) (hb y hy)

lemma length_bulgesOf (e : Entity) (n : ℕ) : (bulgesOf e n).length = n := by
  unfold bulgesOf
  split
  · split_ifs with hl
    · exact hl
    · exact length_replicate
  · exact length_replicate

lemma flat_bulgesOf {n : ℕ} (hc : curvedOf e n = false) : Flat (bulgesOf e n) := by
  by_cases hr : rawBulges e = []
  · intro b hb
    have hz : b = 0 := by
      simp only [bulgesOf, hr] at hb
      change b ∈ if [].length = n then [] else replicate n 0 at hb
      split_ifs at hb
      · cases hb
      · exact eq_of_mem_replicate hb
    rw [hz]
    norm_num [bulgeEps]
  · intro b hb
    simp only [curvedOf, ne_eq, hr, not_false_eq_true, decide_true, Bool.true_and,
      Bool.or_eq_false_iff, any_eq_false, decide_eq_true_eq, not_lt] at hc
    exact hc.2 b hb

def drawnBulges (a : Linear) : List ℚ := if a.bulges = [] then straight a.pts else a.bulges

structure Bulged (a : Linear) : Prop where
  length : a.bulges = [] ∨ a.bulges.length = a.pts.length
  flat : a.curved = false → Flat a.bulges

lemma Bulged.drawn_length (ha : Bulged a) : (drawnBulges a).length = a.pts.length := by
  unfold drawnBulges
  split_ifs with hb
  · exact length_replicate
  · exact ha.length.resolve_left hb

lemma Bulged.drawn_flat (ha : Bulged a) (hc : a.curved = false) : Flat (drawnBulges a) := by
  unfold drawnBulges
  split_ifs
  · exact flat_straight a.pts
  · exact ha.flat hc

lemma drawnAs_linear (hr : Reads e g) (ha : linearOf g = some a) :
    drawnAs e g = ⟨a.layer, .linear a.closed a.pts (drawnBulges a) (widthsOf e), a.props, normalOf e⟩ ∧
      a.props = propsOf e ∧ Bulged a := by
  cases g with
  | line l pts p =>
    cases ha
    exact ⟨rfl, hr.1, .inl rfl, fun _ b hb => (not_mem_nil hb).elim⟩
  | polyline l closed pts bulges curved p =>
    cases ha
    obtain ⟨hp, rfl, rfl⟩ := hr
    have hl := length_bulgesOf e pts.length
    refine ⟨?_, hp, .inr hl, flat_bulgesOf⟩
    by_cases hn : bulgesOf e pts.length = []
    · have hpts : pts.length = 0 := by rw [← hl, hn, length_nil]
      simp [drawnAs, drawnBulges, straight, hpts]
    · simp [drawnAs, drawnBulges, hn]
  | circle | arc | insert | dimension | mleader | opaqueKind => cases ha

end LeafWeb.CadEdit
