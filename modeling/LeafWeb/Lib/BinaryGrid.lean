import Mathlib.Algebra.Order.Field.Power
import Mathlib.Data.Int.Log
import LeafWeb.Lib.Rounding

/-! Rounding of positive rationals to binary floating-point numbers, ties to even, with no greatest
exponent. -/

namespace LeafWeb.Lib

open Int

lemma roundEven_eq_iff {k : ℤ} {y : ℚ} : roundEven y = k ↔ |y - k| < 1 / 2 ∨ |y - k| = 1 / 2 ∧ Even k := by
  have hlo := floor_le y
  have hhi := lt_floor_add_one y
  have hnr : |y - k| ≤ 1 / 2 → k = ⌊y⌋ ∨ k = ⌊y⌋ + 1 := by
    intro h
    obtain ⟨h1, h2⟩ := abs_le.mp h
    have h3 : (k : ℚ) < ⌊y⌋ + 2 := by linarith
    have h4 : (⌊y⌋ : ℚ) < k + 1 := by linarith
    have h3' : k < ⌊y⌋ + 2 := by exact_mod_cast h3
    have h4' : ⌊y⌋ < k + 1 := by exact_mod_cast h4
    omega
  have hf : |y - ⌊y⌋| = y - ⌊y⌋ := abs_of_nonneg (by linarith)
  have hnx : |y - (⌊y⌋ + 1 : ℤ)| = ⌊y⌋ + 1 - y := by
    rw [abs_of_neg (by push_cast; linarith)]
    push_cast
    ring
  constructor
  · intro h
    have herr := abs_roundEven_sub_le y
    rw [h, abs_sub_comm] at herr
    rcases lt_or_eq_of_le herr with hlt | heq
    · exact .inl hlt
    refine .inr ⟨heq, ?_⟩
    rcases hnr herr with rfl | rfl
    · by_contra ho
      have hm : ⌊y⌋ % 2 ≠ 0 := fun h => ho (even_iff.mpr h)
      rw [roundEven, if_neg (by linarith), if_neg (by linarith), if_neg hm] at h
      omega
    · by_cases hm : ⌊y⌋ % 2 = 0
      · rw [roundEven, if_neg (by linarith), if_neg (by linarith), if_pos hm] at h
        omega
      · exact even_iff.mpr (by omega)
  · rintro (hlt | ⟨heq, he⟩)
    · rcases hnr hlt.le with rfl | rfl
      · rw [hf] at hlt
        rw [roundEven, if_pos hlt]
      · rw [roundEven, if_neg (by linarith), if_pos (by linarith)]
    · rcases hnr heq.le with rfl | rfl
      · rw [roundEven, if_neg (by linarith), if_neg (by linarith), if_pos (even_iff.mp he)]
      · have hm : ¬ ⌊y⌋ % 2 = 0 := by
          have := even_iff.mp he
          omega
        rw [roundEven, if_neg (by linarith), if_neg (by linarith), if_neg hm]

section

variable (p : ℕ) (least : ℤ)

def gridExponent (q : ℚ) : ℤ := max (log 2 q + 1 - p) least

def nearest (q : ℚ) : ℚ := roundEven (q / 2 ^ gridExponent p least q) * 2 ^ gridExponent p least q

structure Normal (m : ℕ) (e : ℤ) : Prop where
  lt : m < 2 ^ p
  ge : least ≤ e
  full : 2 ^ (p - 1) ≤ m ∨ e = least

def Boundary (m : ℕ) (e : ℤ) : Prop := m = 2 ^ (p - 1) ∧ least < e

end

variable {p m : ℕ} {least e : ℤ} {q : ℚ}

private lemma two_zpow_lt (a b : ℤ) (h : a < b) : (2 : ℚ) * 2 ^ a ≤ 2 ^ b := by
  have hle : (2 : ℚ) ^ (a + 1) ≤ 2 ^ b := zpow_le_zpow_right₀ (by norm_num) (by omega)
  rw [zpow_add_one₀ (by norm_num)] at hle
  linarith

private lemma two_pow_pred (hp : 0 < p) : (2 : ℚ) ^ p = 2 * 2 ^ (p - 1) := by
  conv_lhs => rw [show p = (p - 1) + 1 by omega]
  ring

lemma lt_gridExponent (p : ℕ) (least : ℤ) (q : ℚ) : q < 2 ^ p * 2 ^ gridExponent p least q := by
  have hl : q < ((2 : ℕ) : ℚ) ^ (log 2 q + 1) := lt_zpow_succ_log_self (by norm_num) q
  refine lt_of_lt_of_le hl ?_
  rw [← zpow_natCast, ← zpow_add₀ (by norm_num)]
  apply zpow_le_zpow_right₀ (by norm_num)
  have := le_max_left (log 2 q + 1 - p) least
  rw [← gridExponent] at this
  omega

lemma gridExponent_le (hp : 0 < p) (hq : 0 < q) (h : gridExponent p least q ≠ least) :
    2 ^ (p - 1) * 2 ^ gridExponent p least q ≤ q := by
  have hl : ((2 : ℕ) : ℚ) ^ log 2 q ≤ q := zpow_log_le_self (by norm_num) hq
  have heq : gridExponent p least q = log 2 q + 1 - p := by
    rcases max_choice (log 2 q + 1 - p) least with h' | h'
    · exact h'
    · exact absurd h' h
  refine le_trans (le_of_eq ?_) hl
  rw [heq, ← zpow_natCast, ← zpow_add₀ (by norm_num)]
  congr 1
  omega

lemma nearest_le (p : ℕ) (least : ℤ) (q : ℚ) : nearest p least q ≤ 2 ^ p * 2 ^ gridExponent p least q := by
  have hpos : (0 : ℚ) < 2 ^ gridExponent p least q := by positivity
  have h : roundEven (q / 2 ^ gridExponent p least q) ≤ (2 ^ p : ℕ) := by
    apply roundEven_le
    rw [div_le_iff₀ hpos]
    exact_mod_cast (lt_gridExponent p least q).le
  have h' : (roundEven (q / 2 ^ gridExponent p least q) : ℚ) ≤ 2 ^ p := by exact_mod_cast h
  exact mul_le_mul_of_nonneg_right h' hpos.le

lemma le_nearest (hp : 0 < p) (hq : 0 < q) (h : gridExponent p least q ≠ least) :
    2 ^ (p - 1) * 2 ^ gridExponent p least q ≤ nearest p least q := by
  have hpos : (0 : ℚ) < 2 ^ gridExponent p least q := by positivity
  have hle : ((2 ^ (p - 1) : ℕ) : ℤ) ≤ roundEven (q / 2 ^ gridExponent p least q) := by
    apply le_roundEven
    rw [le_div_iff₀ hpos]
    exact_mod_cast gridExponent_le hp hq h
  have h' : (2 : ℚ) ^ (p - 1) ≤ roundEven (q / 2 ^ gridExponent p least q) := by exact_mod_cast hle
  exact mul_le_mul_of_nonneg_right h' hpos.le

lemma nearest_eq_of_gridExponent (h : gridExponent p least q = e) :
    nearest p least q = m * 2 ^ e ↔
      |q - m * 2 ^ e| < 2 ^ e / 2 ∨ |q - m * 2 ^ e| = 2 ^ e / 2 ∧ Even m := by
  have hpos : (0 : ℚ) < 2 ^ e := by positivity
  have hs : |q - m * 2 ^ e| = |q / 2 ^ e - (m : ℤ)| * 2 ^ e := by
    rw [← abs_of_pos hpos, ← abs_mul, abs_of_pos hpos, sub_mul, div_mul_cancel₀ _ hpos.ne', cast_natCast]
  have hh : (2 : ℚ) ^ e / 2 = 1 / 2 * 2 ^ e := by ring
  rw [nearest, h, mul_left_inj' hpos.ne', hs, hh, mul_lt_mul_iff_left₀ hpos,
    mul_left_inj' hpos.ne', ← even_coe_nat, ← roundEven_eq_iff]
  exact_mod_cast Iff.rfl

lemma below_of_gridExponent_lt (hp : 0 < p) (h : gridExponent p least q < e) :
    q < 2 ^ (p - 1) * 2 ^ e ∧ nearest p least q ≤ 2 ^ (p - 1) * 2 ^ e := by
  have hg : (2 : ℚ) ^ p * 2 ^ gridExponent p least q ≤ 2 ^ (p - 1) * 2 ^ e := by
    calc (2 : ℚ) ^ p * 2 ^ gridExponent p least q
        = 2 ^ (p - 1) * (2 * 2 ^ gridExponent p least q) := by rw [two_pow_pred hp]; ring
      _ ≤ 2 ^ (p - 1) * 2 ^ e := mul_le_mul_of_nonneg_left (two_zpow_lt _ _ h) (by positivity)
  have := lt_gridExponent p least q
  have := nearest_le p least q
  exact ⟨by linarith, by linarith⟩

section

variable (hp : 0 < p) (hn : Normal p least m e) (hq : 0 < q)

include hp hn hq

lemma above_of_lt_gridExponent (h : e < gridExponent p least q) :
    m * 2 ^ e + 2 ^ e ≤ q ∧ m * 2 ^ e < nearest p least q := by
  have hne : gridExponent p least q ≠ least := by
    have := hn.ge
    omega
  have hpos : (0 : ℚ) < 2 ^ e := by positivity
  have hd := two_zpow_lt e _ h
  have ht : (m : ℚ) + 1 ≤ 2 ^ p := by exact_mod_cast hn.lt
  have hg : (m : ℚ) * 2 ^ e + 2 ^ e ≤ 2 ^ (p - 1) * 2 ^ gridExponent p least q := by
    calc (m : ℚ) * 2 ^ e + 2 ^ e = (m + 1) * 2 ^ e := by ring
      _ ≤ 2 ^ p * 2 ^ e := mul_le_mul_of_nonneg_right ht hpos.le
      _ = 2 ^ (p - 1) * (2 * 2 ^ e) := by rw [two_pow_pred hp]; ring
      _ ≤ 2 ^ (p - 1) * 2 ^ gridExponent p least q :=
        mul_le_mul_of_nonneg_left hd (by positivity)
  have hl := gridExponent_le hp hq hne
  have hnr := le_nearest hp hq hne
  exact ⟨by linarith, by linarith⟩

lemma nearest_eq_iff (hb : ¬ Boundary p least m e) :
    nearest p least q = m * 2 ^ e ↔
      |q - m * 2 ^ e| < 2 ^ e / 2 ∨ |q - m * 2 ^ e| = 2 ^ e / 2 ∧ Even m := by
  have hpos : (0 : ℚ) < 2 ^ e := by positivity
  have ho : 2 ^ e ≤ |q - m * 2 ^ e| → ¬ (|q - m * 2 ^ e| < 2 ^ e / 2 ∨ |q - m * 2 ^ e| = 2 ^ e / 2 ∧ Even m) := by
    rintro hfar (h | ⟨h, -⟩) <;> linarith
  rcases lt_trichotomy (gridExponent p least q) e with h | h | h
  · obtain ⟨hbl, hnr⟩ := below_of_gridExponent_lt hp h
    have hl : least < e := lt_of_le_of_lt (le_max_right _ _) h
    have hm : 2 ^ (p - 1) + 1 ≤ m := by
      rcases hn.full with hf | rfl
      · have hne : m ≠ 2 ^ (p - 1) := fun heq => hb ⟨heq, hl⟩
        omega
      · omega
    have hx : (2 : ℚ) ^ (p - 1) * 2 ^ e + 2 ^ e ≤ m * 2 ^ e := by
      have hm' : (2 : ℚ) ^ (p - 1) + 1 ≤ m := by exact_mod_cast hm
      calc (2 : ℚ) ^ (p - 1) * 2 ^ e + 2 ^ e = (2 ^ (p - 1) + 1) * 2 ^ e := by ring
        _ ≤ m * 2 ^ e := mul_le_mul_of_nonneg_right hm' hpos.le
    refine iff_of_false (by linarith) (ho ?_)
    rw [abs_sub_comm, le_abs]
    exact .inl (by linarith)
  · exact nearest_eq_of_gridExponent h
  · obtain ⟨ha, hnr⟩ := above_of_lt_gridExponent hp hn hq h
    refine iff_of_false hnr.ne' (ho ?_)
    rw [le_abs]
    exact .inl (by linarith)

lemma nearest_eq_iff_of_boundary (hp' : 1 < p) (hb : Boundary p least m e) :
    nearest p least q = m * 2 ^ e ↔ m * 2 ^ e - 2 ^ e / 4 ≤ q ∧ q ≤ m * 2 ^ e + 2 ^ e / 2 := by
  have hpos : (0 : ℚ) < 2 ^ e := by positivity
  have hm : (m : ℚ) = 2 ^ (p - 1) := by exact_mod_cast hb.1
  have he : Even m := by
    rw [hb.1, show p - 1 = (p - 2) + 1 by omega, pow_succ]
    exact even_two.mul_left _
  rcases lt_trichotomy (gridExponent p least q) e with h | h | h
  · obtain ⟨hbl, hnr⟩ := below_of_gridExponent_lt hp h
    rcases lt_or_eq_of_le (le_sub_one_of_lt h) with hf | hnx
    · have hd := two_zpow_lt _ _ hf
      have hh : (2 : ℚ) ^ (e - 1) = 2 ^ e / 2 := by
        rw [zpow_sub_one₀ (by norm_num)]
        ring
      have hg : (2 : ℚ) ^ p * 2 ^ gridExponent p least q ≤ m * 2 ^ e / 2 := by
        calc (2 : ℚ) ^ p * 2 ^ gridExponent p least q
            = 2 ^ (p - 1) * (2 * 2 ^ gridExponent p least q) := by rw [two_pow_pred hp]; ring
          _ ≤ 2 ^ (p - 1) * 2 ^ (e - 1) := mul_le_mul_of_nonneg_left hd (by positivity)
          _ = m * 2 ^ e / 2 := by rw [hh, hm]; ring
      have ho : (2 : ℚ) ^ e ≤ m * 2 ^ e := by
        have h1 : (1 : ℚ) ≤ m := by
          rw [hm]
          exact one_le_pow₀ (by norm_num)
        nlinarith
      have hq' := lt_gridExponent p least q
      have hnr' := nearest_le p least q
      refine iff_of_false (by linarith) ?_
      rintro ⟨hl, -⟩
      linarith
    · have hx : (m : ℚ) * 2 ^ e = (2 ^ p : ℕ) * 2 ^ (e - 1) := by
        rw [zpow_sub_one₀ (by norm_num), hm]
        push_cast
        rw [two_pow_pred hp]
        ring
      have he' : Even (2 ^ p) := by
        rw [show p = (p - 1) + 1 by omega, pow_succ]
        exact even_two.mul_left _
      have hqr : (2 : ℚ) ^ (e - 1) / 2 = 2 ^ e / 4 := by
        rw [zpow_sub_one₀ (by norm_num)]
        ring
      rw [hx, nearest_eq_of_gridExponent hnx, ← hx, hqr]
      rw [abs_of_neg (by rw [hm]; linarith)]
      constructor
      · rintro (h | ⟨h, -⟩) <;> exact ⟨by linarith, by rw [hm]; linarith⟩
      rintro ⟨hl, -⟩
      rcases lt_or_eq_of_le hl with hlt | heq
      · exact .inl (by linarith)
      · exact .inr ⟨by linarith, he'⟩
  · have hge : (m : ℚ) * 2 ^ e ≤ q := by
      have := gridExponent_le hp hq (by rw [h]; exact hb.2.ne')
      rwa [h, ← hm] at this
    rw [nearest_eq_of_gridExponent h, abs_of_nonneg (by linarith)]
    constructor
    · rintro (hlt | ⟨heq, -⟩) <;> exact ⟨by linarith, by linarith⟩
    rintro ⟨-, hup⟩
    rcases lt_or_eq_of_le hup with hlt | heq
    · exact .inl (by linarith)
    · exact .inr ⟨by linarith, he⟩
  · obtain ⟨ha, hnr⟩ := above_of_lt_gridExponent hp hn hq h
    refine iff_of_false hnr.ne' ?_
    rintro ⟨-, hup⟩
    linarith

end

section

variable {r : ℚ} (hp : 1 < p) (hn : Normal p least m e) (hq : 0 < q) (hr : 0 < r)

include hp hn hq

lemma nearest_eq_of_close (h : |q - m * 2 ^ e| < 2 ^ e / 4) : nearest p least q = m * 2 ^ e := by
  have hpos : (0 : ℚ) < 2 ^ e := by positivity
  by_cases hb : Boundary p least m e
  · rw [nearest_eq_iff_of_boundary (by omega) hn hq hp hb]
    obtain ⟨h1, h2⟩ := abs_lt.mp h
    exact ⟨by linarith, by linarith⟩
  · rw [nearest_eq_iff (by omega) hn hq hb]
    exact .inl (by linarith)

lemma abs_sub_le_of_nearest_eq (h : nearest p least q = m * 2 ^ e) :
    |q - m * 2 ^ e| ≤ 2 ^ e / 2 := by
  by_cases hb : Boundary p least m e
  · rw [nearest_eq_iff_of_boundary (by omega) hn hq hp hb] at h
    exact abs_le.mpr ⟨by linarith [h.1], by linarith [h.2]⟩
  · rw [nearest_eq_iff (by omega) hn hq hb] at h
    rcases h with h | ⟨h, -⟩ <;> linarith

include hr

lemma nearest_eq_of_closer (hb : ¬ Boundary p least m e) (h : nearest p least q = m * 2 ^ e)
    (hle : |r - m * 2 ^ e| ≤ |q - m * 2 ^ e|) : nearest p least r = m * 2 ^ e := by
  rw [nearest_eq_iff (by omega) hn hq hb] at h
  rw [nearest_eq_iff (by omega) hn hr hb]
  rcases h with h | ⟨h, he⟩
  · exact .inl (by linarith)
  rcases lt_or_eq_of_le hle with hlt | heq
  · exact .inl (by linarith)
  · exact .inr ⟨by linarith, he⟩

lemma nearest_eq_of_between (h : nearest p least q = m * 2 ^ e)
    (hbt : q ≤ r ∧ r ≤ m * 2 ^ e ∨ m * 2 ^ e ≤ r ∧ r ≤ q) : nearest p least r = m * 2 ^ e := by
  by_cases hb : Boundary p least m e
  · rw [nearest_eq_iff_of_boundary (by omega) hn hq hp hb] at h
    rw [nearest_eq_iff_of_boundary (by omega) hn hr hp hb]
    rcases hbt with ⟨h1, h2⟩ | ⟨h1, h2⟩ <;> exact ⟨by linarith, by linarith⟩
  apply nearest_eq_of_closer hp hn hq hr hb h
  rcases hbt with ⟨h1, h2⟩ | ⟨h1, h2⟩
  · rw [abs_of_nonpos (by linarith), abs_of_nonpos (by linarith)]
    linarith
  · rw [abs_of_nonneg (by linarith), abs_of_nonneg (by linarith)]
    linarith

end

end LeafWeb.Lib
