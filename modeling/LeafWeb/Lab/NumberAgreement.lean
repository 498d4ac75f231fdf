import LeafWeb.Lab.ReadingBack

namespace LeafWeb.Lab

open Lib Nat List Binary64 Bool

def exceptionalPowers : List ℤ :=
  [-1017, -1007, -957, -921, -808, -791, -788, -778, -705, -695, -662, -652, -549, -509, -496, -489,
    -383, -366, -296, -140, -97, -77, -44, -24, 89, 122, 132, 172, 182, 275, 305, 345, 378, 398,
    405, 481, 534, 544, 554, 574, 594, 710, 803, 863, 896, 976]

def Binary64.Exceptional (x : Binary64) : Prop := x.significand = 2 ^ 52 ∧ x.exponent + 52 ∈ exceptionalPowers
  deriving Decidable

structure Gap (k : ℕ) (x u : ℚ) : Prop where
  outside : u / 4 < x - decimal k (below k x).1 (below k x).2
  closer : 2 * (x - decimal k (below k x).1 (below k x).2) ≤ place k x
  inside : decimal k (above k x).1 (above k x).2 - x ≤ u / 2

variable {y : Binary64} {k s : ℕ} {n M E : ℤ} {u x : ℚ}

lemma Binary64.boundary_magnitude (hb : Boundary 53 (-1074) y.significand y.exponent) :
    y.magnitude = 2 ^ 52 * 2 ^ y.exponent := by
  have hm : (y.significand : ℚ) = 2 ^ 52 := by exact_mod_cast hb.1
  rw [magnitude, hm]

lemma gap_of_not_readsBack (hy : y.value ≠ 0) (hs : Shortest (readsBack y) y.magnitude k s n)
    (hb : Boundary 53 (-1074) y.significand y.exponent)
    (hr : ¬ readsBack y (decimal k (rounded k y.magnitude).1 (rounded k y.magnitude).2)) :
    Gap k y.magnitude (2 ^ y.exponent) ∧ above k y.magnitude = (s, n) := by
  have hp := magnitude_pos hy
  have hk := hs.pos
  have hle := decimal_below_le hk hp
  have hlt := lt_decimal_above hk hp
  have hg := above_sub_below hk y.magnitude
  have hce : ∀ {q : ℚ}, 0 < q → (readsBack y q ↔
      y.magnitude - 2 ^ y.exponent / 4 ≤ q ∧ q ≤ y.magnitude + 2 ^ y.exponent / 2) := by
    intro q hq
    rw [readsBack_iff]
    exact nearest_eq_iff_of_boundary (by norm_num) y.normal hq (by norm_num) hb
  have hbl := hce (decimal_pos (digits_below hk hp) (n := (below k y.magnitude).2))
  have hab := hce (decimal_pos (digits_above hk hp) (n := (above k y.magnitude).2))
  have ha := reads_around hp readsBack_of_between hk hs.digits hs.readsBack
  have hn : ¬ readsBack y (decimal k (below k y.magnitude).1 (below k y.magnitude).2) ∧
      2 * (y.magnitude - decimal k (below k y.magnitude).1 (below k y.magnitude).2) ≤ place k y.magnitude := by
    rcases rounded_cases hk hp with ⟨hc, hd, -⟩ | ⟨hc, hd, -⟩
    · rw [hc] at hr
      exact ⟨hr, hd⟩
    rw [hc] at hr
    exfalso
    have hl := hbl.mp (ha.resolve_right hr)
    exact hr (hab.mpr ⟨by linarith, by linarith⟩)
  have hup := ha.resolve_left hn.1
  refine ⟨⟨?_, hn.2, by linarith [(hab.mp hup).2]⟩, ?_⟩
  · by_contra hin
    exact hn.1 (hbl.mpr ⟨by linarith, by linarith⟩)
  · have ho : decimal k (above k y.magnitude).1 (above k y.magnitude).2 ≤ decimal k s n := by
      refine (outside hk hp hs.digits n).resolve_left ?_
      intro hl
      exact hn.1 (readsBack_of_between (decimal_pos hs.digits)
        (decimal_pos (digits_below hk hp)) hs.readsBack (.inl ⟨hl, hle⟩))
    have hcl := hs.closest (digits_above hk hp) hup
    rw [abs_of_pos (by linarith), abs_of_pos (by linarith)] at hcl
    obtain ⟨h1, h2⟩ := decimal_inj hk (digits_above hk hp) hs.digits (le_antisymm ho (by linarith))
    exact Prod.ext h1 h2

lemma Gap.sixteen (hk : 0 < k) (hu : 0 < u) (hx : x = 2 ^ 52 * u) (h : Gap k x u) : k = 16 := by
  have hpos := place_pos k x
  have hg := above_sub_below hk x
  have hl : 10 ^ (k - 1) * place k x ≤ x := by
    rw [pow_pred_mul_place hk]
    exact ten_zpow_le (by rw [hx]; positivity)
  have hh : x < 10 ^ k * place k x := by
    rw [pow_mul_place]
    exact lt_ten_zpow x
  have hp : place k x ≤ u := by linarith [h.closer, h.inside]
  have hp' : u < 2 * place k x := by linarith [h.outside, h.closer]
  have hm : (2 : ℚ) ^ 52 < 10 ^ k := by
    by_contra hle
    have hpr : (10 : ℚ) ^ k * place k x ≤ 2 ^ 52 * u := mul_le_mul (not_lt.mp hle) hp hpos.le (by positivity)
    linarith
  have hf : (10 : ℚ) ^ (k - 1) < 2 ^ 53 := by
    by_contra hle
    have hpr : (2 : ℚ) ^ 53 * place k x ≤ 10 ^ (k - 1) * place k x :=
      mul_le_mul_of_nonneg_right (not_lt.mp hle) hpos.le
    linarith
  have hm' : 10 ^ 15 < 10 ^ k := by
    have : (10 : ℚ) ^ 15 < 10 ^ k := lt_of_lt_of_le (by norm_num) hm.le
    exact_mod_cast this
  have hf' : 10 ^ (k - 1) < 10 ^ 16 := by
    have : (10 : ℚ) ^ (k - 1) < 10 ^ 16 := lt_trans hf (by norm_num)
    exact_mod_cast this
  have h15 := (Nat.pow_lt_pow_iff_right (by norm_num)).mp hm'
  have h16 := (Nat.pow_lt_pow_iff_right (by norm_num)).mp hf'
  omega

/-- With a gap around `2 ^ E` the decimal above ends in zero, or the power is listed. -/
def gapCheck (E : ℤ) : Bool :=
  let M := E * 1292913986 / 2 ^ 32 + 1
  let A := 2 ^ E.toNat * 10 ^ (16 - M).toNat
  let B := 10 ^ (M - 16).toNat * 2 ^ (-E).toNat
  let r := A % B
  10 ^ 15 * B ≤ A && A < 10 ^ 16 * B &&
    (!(A < 2 ^ 54 * r) || !(2 * r ≤ B) || !(2 ^ 53 * (B - r) ≤ A) || (A / B + 1) % 10 = 0 || E ∈ exceptionalPowers)

lemma gapCheck_range : (range 2045).all fun i => gapCheck (i - 1021) := by decide +kernel

lemma magnitude_eq (hx : 0 < x) (h1 : 10 ^ (M - 1) ≤ x) (h2 : x < 10 ^ M) : Lib.magnitude x = M := by
  have hl := (Int.zpow_le_iff_le_log (b := 10) (x := M - 1) (by norm_num) hx).mp (by rwa [cast_ofNat])
  have hh := (Int.lt_zpow_iff_log_lt (b := 10) (x := M) (by norm_num) hx).mp (by rwa [cast_ofNat])
  rw [Lib.magnitude]
  omega

lemma zpow_mul_toNat {b : ℚ} (hb : b ≠ 0) (e : ℤ) : b ^ e * b ^ (-e).toNat = b ^ e.toNat := by
  rw [← zpow_natCast, ← zpow_natCast, ← zpow_add₀ hb]
  congr 1
  omega

section

-- `x` is the quotient of `A` and `B` in units of the sixteenth digit.
variable {A B : ℕ} (hr : x * B = A * 10 ^ (M - 16)) (hB : 0 < B) (hl : 10 ^ 15 * B ≤ A) (hh : A < 10 ^ 16 * B)
include hr hB hl hh

lemma place_of_ratio : place 16 x = 10 ^ (M - 16) := by
  have hB' : (0 : ℚ) < B := by exact_mod_cast hB
  have hl' : (10 : ℚ) ^ 15 * B ≤ A := by exact_mod_cast hl
  have hh' : (A : ℚ) < 10 ^ 16 * B := by exact_mod_cast hh
  have hu : (0 : ℚ) < 10 ^ (M - 16) := by positivity
  have hlow : (10 : ℚ) ^ (M - 1) ≤ x := by
    rw [show M - 1 = 15 + (M - 16) by ring, zpow_add₀ (by norm_num), zpow_ofNat]
    refine le_of_mul_le_mul_right ?_ hB'
    rw [hr]
    nlinarith
  have hhigh : x < 10 ^ M := by
    rw [show M = 16 + (M - 16) by ring, zpow_add₀ (by norm_num), zpow_ofNat]
    refine lt_of_mul_lt_mul_right ?_ hB'.le
    rw [hr]
    nlinarith
  rw [place, magnitude_eq (lt_of_lt_of_le (by positivity) hlow) hlow hhigh]
  norm_num

lemma floor_of_ratio : ⌊x / place 16 x⌋.toNat = A / B := by
  have hq : x / place 16 x = A / B := by
    rw [place_of_ratio hr hB hl hh, div_eq_div_iff (by positivity) (by positivity)]
    exact hr
  rw [hq, Rat.floor_natCast_div_natCast]
  exact Int.toNat_natCast _

lemma Gap.remainder (hg : Gap 16 x (x / 2 ^ 52)) :
    A < 2 ^ 54 * (A % B) ∧ 2 * (A % B) ≤ B ∧ 2 ^ 53 * (B - A % B) ≤ A := by
  have hB' : (0 : ℚ) < B := by exact_mod_cast hB
  have hu : (0 : ℚ) < 10 ^ (M - 16) := by positivity
  have hp := place_of_ratio hr hB hl hh
  have hf := floor_of_ratio hr hB hl hh
  have hd : (A : ℚ) = B * (A / B : ℕ) + (A % B : ℕ) := by exact_mod_cast (div_add_mod A B).symm
  have hrs : (x - decimal 16 (below 16 x).1 (below 16 x).2) * B = (A % B : ℕ) * 10 ^ (M - 16) := by
    rw [decimal_below (by norm_num), hf, hp, sub_mul, hr, hd]
    ring
  have ho : (decimal 16 (above 16 x).1 (above 16 x).2 - x) * B = (B - (A % B : ℕ)) * 10 ^ (M - 16) := by
    rw [decimal_above (by norm_num), hf, hp, sub_mul, hr, hd]
    ring
  refine ⟨?_, ?_, ?_⟩
  · have h := mul_lt_mul_of_pos_right hg.outside hB'
    have h' : (A : ℚ) * 10 ^ (M - 16) < 2 ^ 54 * (A % B : ℕ) * 10 ^ (M - 16) := by
      rw [← hr]
      linarith
    exact_mod_cast lt_of_mul_lt_mul_right h' hu.le
  · have h := mul_le_mul_of_nonneg_right hg.closer hB'.le
    have h' : 2 * (A % B : ℕ) * 10 ^ (M - 16) ≤ (B : ℚ) * 10 ^ (M - 16) := by
      rw [mul_assoc, hrs, hp] at h
      linarith
    exact_mod_cast le_of_mul_le_mul_right h' hu
  · have h := mul_le_mul_of_nonneg_right hg.inside hB'.le
    have h' : 2 ^ 53 * ((B : ℚ) - (A % B : ℕ)) * 10 ^ (M - 16) ≤ A * 10 ^ (M - 16) := by
      rw [← hr]
      linarith
    have h'' := le_of_mul_le_mul_right h' hu
    rw [← cast_sub (mod_lt A hB).le] at h''
    exact_mod_cast h''

end

lemma not_gap_of_gapCheck (hc : gapCheck E) (hE : E ∉ exceptionalPowers)
    (hg : Gap 16 (2 ^ E) (2 ^ E / 2 ^ 52)) : 10 ∣ (above 16 (2 ^ E)).1 := by
  set M := E * 1292913986 / 2 ^ 32 + 1 with hM
  set A := 2 ^ E.toNat * 10 ^ (16 - M).toNat with hA
  set B := 10 ^ (M - 16).toNat * 2 ^ (-E).toNat with hB
  have hr : (2 : ℚ) ^ E * B = A * 10 ^ (M - 16) := by
    have h10 := zpow_mul_toNat (b := 10) (by norm_num) (M - 16)
    rw [neg_sub] at h10
    rw [hA, hB]
    push_cast
    rw [← zpow_mul_toNat (by norm_num) E, ← h10]
    ring
  simp only [gapCheck, ← hM, ← hA, ← hB, and_eq_true, or_eq_true, decide_eq_true_eq,
    not_eq_true', decide_eq_false_iff_not, not_lt, not_le] at hc
  obtain ⟨⟨hl, hh⟩, hcs⟩ := hc
  have hpos : 0 < B := by positivity
  obtain ⟨hout, hcl, hin⟩ := hg.remainder hr hpos hl hh
  have ht : (A / B + 1) % 10 = 0 := by
    rcases hcs with (((h | h) | h) | h) | h
    · omega
    · omega
    · omega
    · exact h
    · exact absurd h hE
  rw [above, floor_of_ratio hr hpos hl hh, carry]
  split_ifs with h
  · exact dvd_pow_self 10 (by norm_num)
  · exact dvd_of_mod_eq_zero ht

lemma readsBack_rounded_of_boundary (hy : y.value ≠ 0) (hs : Shortest (readsBack y) y.magnitude k s n)
    (hb : Boundary 53 (-1074) y.significand y.exponent) (he : ¬ y.Exceptional) :
    readsBack y (decimal k (rounded k y.magnitude).1 (rounded k y.magnitude).2) := by
  by_contra hr
  obtain ⟨hg, ha⟩ := gap_of_not_readsBack hy hs hb hr
  have hm := boundary_magnitude hb
  have hk : k = 16 := hg.sixteen hs.pos (by positivity) hm
  subst hk
  have hp : y.magnitude = 2 ^ (y.exponent + 52) := by
    rw [hm, zpow_add₀ (by norm_num), mul_comm]
    norm_cast
  have hu : (2 : ℚ) ^ y.exponent = 2 ^ (y.exponent + 52) / 2 ^ 52 := by
    rw [← hp, hm]
    field_simp
  have hc : gapCheck (y.exponent + 52) := by
    have h := all_eq_true.mp gapCheck_range (y.exponent + 1073).toNat (by
      have := y.finite
      rw [mem_range]
      omega)
    have hcs : (((y.exponent + 1073).toNat : ℕ) : ℤ) - 1021 = y.exponent + 52 := by
      have := hb.2
      omega
    rwa [hcs] at h
  rw [hp, hu] at hg
  rw [hp] at ha
  have hd := not_gap_of_gapCheck hc (fun h => he ⟨hb.1, h⟩) hg
  rw [ha] at hd
  exact hs.not_dvd hd

lemma numbers_eq_of_not_exceptional (he : ¬ y.Exceptional) : serverNumber y = browserNumber y := by
  by_cases hy : y.value = 0
  · rw [serverNumber, browserNumber, if_pos hy, if_pos hy]
  obtain ⟨k, s, n, hs, ht⟩ := browserNumber_eq hy
  rw [ht]
  apply numbers_eq hy hs
  by_cases hb : Boundary 53 (-1074) y.significand y.exponent
  · exact readsBack_rounded_of_boundary hy hs hb he
  have hp := magnitude_pos hy
  have hr := readsBack_iff.mp hs.readsBack
  apply readsBack_iff.mpr
  exact nearest_eq_of_closer (by norm_num) y.normal (decimal_pos hs.digits)
    (decimal_pos (digits_rounded hs.pos hp)) hb hr
    (abs_rounded_sub_le_abs hs.pos hp hs.digits n)

/-- Of sixteen digits the closest decimal is outside the cell of `2 ^ E` and the one above inside. -/
def longCheck (E : ℤ) : Bool :=
  let x : ℚ := 2 ^ E
  let inCell (k : ℕ) (d : ℕ × ℤ) : Bool := x - x / 2 ^ 54 ≤ decimal k d.1 d.2 && decimal k d.1 d.2 ≤ x + x / 2 ^ 53
  (-1021 ≤ E) && !inCell 15 (below 15 x) && !inCell 15 (above 15 x) && !inCell 16 (rounded 16 x) &&
    inCell 16 (above 16 x) && (rounded 17 x).1 % 10 ≠ 0

lemma longCheck_exceptional : exceptionalPowers.all longCheck := by decide +kernel

lemma numbers_ne_of_exceptional (he : y.Exceptional) : serverNumber y ≠ browserNumber y := by
  have hch := all_eq_true.mp longCheck_exceptional _ he.2
  simp only [longCheck, and_eq_true, not_eq_true', decide_eq_true_eq] at hch
  obtain ⟨⟨⟨⟨⟨hE, hlow⟩, hh⟩, hr⟩, ha⟩, hl⟩ := hch
  have hb : Boundary 53 (-1074) y.significand y.exponent := ⟨he.1, by omega⟩
  have hm := boundary_magnitude hb
  have hpow : y.magnitude = 2 ^ (y.exponent + 52) := by
    rw [hm, zpow_add₀ (by norm_num), mul_comm]
    norm_cast
  have hpos : 0 < y.magnitude := by
    rw [hpow]
    positivity
  have hcl : ∀ {q : ℚ}, 0 < q → (readsBack y q ↔
      y.magnitude - y.magnitude / 2 ^ 54 ≤ q ∧ q ≤ y.magnitude + y.magnitude / 2 ^ 53) := by
    intro q hq
    have h := nearest_eq_iff_of_boundary (by norm_num) y.normal hq (by norm_num) hb
    rw [Binary64.readsBack_iff, h, ← Binary64.magnitude, hm]
    have hqr : (2 : ℚ) ^ y.exponent / 4 = 2 ^ 52 * 2 ^ y.exponent / 2 ^ 54 := by ring
    have hhl : (2 : ℚ) ^ y.exponent / 2 = 2 ^ 52 * 2 ^ y.exponent / 2 ^ 53 := by ring
    rw [hqr, hhl]
  rw [← hpow, and_eq_false_iff, decide_eq_false_iff_not, decide_eq_false_iff_not, ← not_and_or] at hlow hh hr
  rw [← hpow] at ha hl
  rw [← hcl (decimal_pos (digits_below (by norm_num) hpos))] at hlow
  rw [← hcl (decimal_pos (digits_above (by norm_num) hpos))] at hh ha
  rw [← hcl (decimal_pos (digits_rounded (by norm_num) hpos))] at hr
  have hy : y.value ≠ 0 := by
    rw [value]
    split_ifs
    · exact neg_ne_zero.mpr hpos.ne'
    · exact hpos.ne'
  obtain ⟨k, s, n, hs, hbr⟩ := browserNumber_eq hy
  obtain ⟨p, hp, hrd, hf, hsr⟩ := serverNumber_eq hy
  have hk : k ≤ 16 := hs.least (by norm_num) (digits_above (by norm_num) hpos) ha
  have hp17 : p = 17 := by
    have hle := hf 17 (by norm_num) (readsBack_seventeen hpos)
    by_contra hne
    rcases lt_or_ge p 16 with hlt | hge
    · have hd := digits_rounded hp hpos
      rw [← decimal_pad _ _ (show p ≤ 15 by omega)] at hrd
      rcases reads_around hpos readsBack_of_between (by norm_num)
        (hd.pad hp (show p ≤ 15 by omega)) hrd with h | h
      · exact hlow h
      · exact hh h
    · obtain rfl : p = 16 := by omega
      exact hr hrd
  subst hp17
  intro heq
  rw [hsr, hbr] at heq
  have ht := append_cancel_left (Option.some.inj heq)
  have hd := digits_rounded (k := 17) (by norm_num) hpos
  have hv := congrArg textValue ht
  rw [textValue_layout (fun c hc => isDigit_toDigits (mem_of_mem_stripEnd hc))
      (leads_toDigits hd.pos).stripEnd_ne_nil,
    textValue_layout (fun c => isDigit_toDigits) toDigits_ne_nil,
    ofDigitChars_rounded (by norm_num) hpos (stripEnd_stripEnd _),
    ofDigitChars_ten_toDigits, length_toDigits hs.pos hs.digits.1 hs.digits.2, ← decimal,
    ← decimal_pad s n (show k ≤ 17 by omega)] at hv
  obtain ⟨h1, -⟩ := decimal_inj (by norm_num) hd (hs.digits.pad hs.pos (by omega)) hv
  apply hl
  rw [h1, show 17 - k = (16 - k) + 1 by omega, pow_succ, ← mul_assoc]
  exact mul_mod_left _ _

lemma numbers_eq_iff : serverNumber y = browserNumber y ↔ ¬ y.Exceptional :=
  ⟨fun h he => numbers_ne_of_exceptional he h, numbers_eq_of_not_exceptional⟩

end LeafWeb.Lab
