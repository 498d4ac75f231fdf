import Mathlib.Data.Rat.Floor

namespace LeafWeb.Lib

open Int

def roundEven (x : ℚ) : ℤ :=
  if x - ⌊x⌋ < 1 / 2 then ⌊x⌋
  else if 1 / 2 < x - ⌊x⌋ then ⌊x⌋ + 1
  else if ⌊x⌋ % 2 = 0 then ⌊x⌋ else ⌊x⌋ + 1

def roundTo (d : ℕ) (x : ℚ) : ℚ := roundEven (x * 10 ^ d) / 10 ^ d

def floorMod (x m : ℚ) : ℚ := x - m * ⌊x / m⌋

@[simp] lemma roundEven_intCast (k : ℤ) : roundEven k = k := by
  simp [roundEven]

lemma abs_roundEven_sub_le (x : ℚ) : |roundEven x - x| ≤ 1 / 2 := by
  have hd : (⌊x⌋ : ℚ) ≤ x := floor_le x
  have hup : x < ⌊x⌋ + 1 := lt_floor_add_one x
  have hs : x - ⌊x⌋ ≤ 1 / 2 → |(⌊x⌋ : ℚ) - x| ≤ 1 / 2 := by
    intro h
    exact abs_le.mpr ⟨by linarith, by linarith⟩
  have hn : 1 / 2 ≤ x - ⌊x⌋ → |((⌊x⌋ + 1 : ℤ) : ℚ) - x| ≤ 1 / 2 := by
    intro h
    rw [cast_add, cast_one]
    exact abs_le.mpr ⟨by linarith, by linarith⟩
  unfold roundEven
  split_ifs with hlt hgt he
  · exact hs hlt.le
  · exact hn hgt.le
  · exact hs (not_lt.mp hgt)
  · exact hn (not_lt.mp hlt)

variable {x m : ℚ}

lemma roundEven_le {n : ℤ} (h : x ≤ n) : roundEven x ≤ n := by
  have he := abs_le.mp (abs_roundEven_sub_le x)
  have hlt : (roundEven x : ℚ) < n + 1 := by linarith [he.2]
  have hlt' : roundEven x < n + 1 := by exact_mod_cast hlt
  omega

lemma le_roundEven {n : ℤ} (h : (n : ℚ) ≤ x) : n ≤ roundEven x := by
  have he := abs_le.mp (abs_roundEven_sub_le x)
  have hlt : (n : ℚ) - 1 < roundEven x := by linarith [he.1]
  have hlt' : n - 1 < roundEven x := by exact_mod_cast hlt
  omega

lemma roundTo_div (d : ℕ) (k : ℤ) : roundTo d (k / 10 ^ d) = k / 10 ^ d := by
  rw [roundTo, div_mul_cancel₀ _ (by positivity), roundEven_intCast]

@[simp] lemma roundTo_roundTo (d : ℕ) (x : ℚ) : roundTo d (roundTo d x) = roundTo d x := roundTo_div d _

@[simp] lemma roundTo_zero (d : ℕ) : roundTo d 0 = 0 := by
  have h := roundTo_div d 0
  simpa using h

lemma abs_roundTo_sub_le (d : ℕ) (x : ℚ) : |roundTo d x - x| ≤ 1 / 2 / 10 ^ d := by
  have hp : (0 : ℚ) < 10 ^ d := by positivity
  have heq : roundTo d x - x = (roundEven (x * 10 ^ d) - x * 10 ^ d) / 10 ^ d := by
    rw [roundTo]
    field_simp
  rw [heq, abs_div, abs_of_pos hp]
  exact div_le_div_of_nonneg_right (abs_roundEven_sub_le _) hp.le

lemma abs_roundTo_le (d n : ℕ) (h : |x| ≤ n) : |roundTo d x| ≤ n := by
  have hp : (0 : ℚ) < 10 ^ d := by positivity
  obtain ⟨hlo, hhi⟩ := abs_le.mp h
  have hup : roundEven (x * 10 ^ d) ≤ n * 10 ^ d := by
    apply roundEven_le
    push_cast
    exact mul_le_mul_of_nonneg_right hhi hp.le
  have hd : -(n * 10 ^ d : ℤ) ≤ roundEven (x * 10 ^ d) := by
    apply le_roundEven
    push_cast
    rw [← neg_mul]
    exact mul_le_mul_of_nonneg_right hlo hp.le
  have hup' : (roundEven (x * 10 ^ d) : ℚ) ≤ n * 10 ^ d := by exact_mod_cast hup
  have hd' : -(n * 10 ^ d : ℚ) ≤ roundEven (x * 10 ^ d) := by exact_mod_cast hd
  rw [roundTo, abs_div, abs_of_pos hp, div_le_iff₀ hp, abs_le]
  exact ⟨hd', hup'⟩

lemma floorMod_nonneg (x : ℚ) (hm : 0 < m) : 0 ≤ floorMod x m := by
  have h := floor_le (x / m)
  rw [le_div_iff₀ hm] at h
  rw [floorMod]
  linarith

lemma floorMod_lt (x : ℚ) (hm : 0 < m) : floorMod x m < m := by
  have h := lt_floor_add_one (x / m)
  rw [div_lt_iff₀ hm] at h
  rw [floorMod]
  linarith

lemma floorMod_of_lt (h0 : 0 ≤ x) (h : x < m) : floorMod x m = x := by
  have hm : 0 < m := lt_of_le_of_lt h0 h
  have hf : ⌊x / m⌋ = 0 := by
    rw [floor_eq_zero_iff]
    exact ⟨div_nonneg h0 hm.le, (div_lt_one hm).mpr h⟩
  rw [floorMod, hf]
  simp

end LeafWeb.Lib
