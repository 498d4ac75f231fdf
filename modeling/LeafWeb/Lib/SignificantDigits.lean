import LeafWeb.Lib.BinaryGrid

namespace LeafWeb.Lib

open Int

def Digits (k s : ℕ) : Prop := 10 ^ (k - 1) ≤ s ∧ s < 10 ^ k

def decimal (k s : ℕ) (n : ℤ) : ℚ := s * 10 ^ (n - k)

def magnitude (x : ℚ) : ℤ := log 10 x + 1

def place (k : ℕ) (x : ℚ) : ℚ := 10 ^ (magnitude x - k)

def carry (k s : ℕ) (n : ℤ) : ℕ × ℤ := if s = 10 ^ k then (10 ^ (k - 1), n + 1) else (s, n)

def rounded (k : ℕ) (x : ℚ) : ℕ × ℤ := carry k (roundEven (x / place k x)).toNat (magnitude x)

def below (k : ℕ) (x : ℚ) : ℕ × ℤ := carry k ⌊x / place k x⌋.toNat (magnitude x)

def above (k : ℕ) (x : ℚ) : ℕ × ℤ := carry k (⌊x / place k x⌋.toNat + 1) (magnitude x)

variable {k s t k' : ℕ} {n n' : ℤ} {x : ℚ}

lemma lt_ten_zpow (x : ℚ) : x < 10 ^ magnitude x := by
  have h := lt_zpow_succ_log_self (b := 10) (by norm_num) x
  rwa [Nat.cast_ofNat] at h

lemma ten_zpow_le (hx : 0 < x) : 10 ^ (magnitude x - 1) ≤ x := by
  have h := zpow_log_le_self (b := 10) (by norm_num) hx
  rwa [magnitude, add_sub_cancel_right]

lemma place_pos (k : ℕ) (x : ℚ) : 0 < place k x := by
  rw [place]
  positivity

lemma pow_mul_place (k : ℕ) (x : ℚ) : 10 ^ k * place k x = 10 ^ magnitude x := by
  rw [place, ← zpow_natCast, ← zpow_add₀ (by norm_num)]
  congr 1
  omega

lemma pow_pred_mul_place (hk : 0 < k) (x : ℚ) : 10 ^ (k - 1) * place k x = 10 ^ (magnitude x - 1) := by
  rw [place, ← zpow_natCast, ← zpow_add₀ (by norm_num)]
  congr 1
  omega

lemma Digits.pos (h : Digits k s) : 0 < s := lt_of_lt_of_le (by positivity) h.1

lemma decimal_pos (h : Digits k s) : 0 < decimal k s n := by
  have hs : (0 : ℚ) < s := by exact_mod_cast h.pos
  rw [decimal]
  positivity

lemma Digits.le_decimal (hk : 0 < k) (h : Digits k s) (n : ℤ) : 10 ^ (n - 1) ≤ decimal k s n := by
  have hs : (10 : ℚ) ^ (k - 1) ≤ s := by exact_mod_cast h.1
  calc (10 : ℚ) ^ (n - 1) = 10 ^ (k - 1) * 10 ^ (n - k) := by
        rw [← zpow_natCast, ← zpow_add₀ (by norm_num)]
        congr 1
        omega
    _ ≤ decimal k s n := mul_le_mul_of_nonneg_right hs (by positivity)

lemma Digits.decimal_lt (h : Digits k s) (n : ℤ) : decimal k s n < 10 ^ n := by
  have hs : (s : ℚ) < 10 ^ k := by exact_mod_cast h.2
  calc decimal k s n < 10 ^ k * 10 ^ (n - k) := mul_lt_mul_of_pos_right hs (by positivity)
    _ = 10 ^ n := by
        rw [← zpow_natCast, ← zpow_add₀ (by norm_num)]
        congr 1
        omega

lemma decimal_inj (hk : 0 < k) (hs : Digits k s) (ht : Digits k t)
    (h : decimal k s n = decimal k t n') : s = t ∧ n = n' := by
  have hle : ∀ {s t : ℕ} {n n' : ℤ}, Digits k s → Digits k t → decimal k s n = decimal k t n' → n ≤ n' := by
    intro s t n n' hs ht h
    have hlt : (10 : ℚ) ^ (n - 1) < 10 ^ n' := lt_of_le_of_lt (hs.le_decimal hk n) (h ▸ ht.decimal_lt n')
    have := (zpow_lt_zpow_iff_right₀ (by norm_num : (1 : ℚ) < 10)).mp hlt
    omega
  have hn : n = n' := le_antisymm (hle hs ht h) (hle ht hs h.symm)
  subst hn
  have hp : (10 : ℚ) ^ (n - k) ≠ 0 := by positivity
  have hst : (s : ℚ) = t := mul_right_cancel₀ hp h
  exact ⟨by exact_mod_cast hst, rfl⟩

lemma Digits.pad (hk : 0 < k) (h : Digits k s) (hle : k ≤ k') : Digits k' (s * 10 ^ (k' - k)) := by
  have h1 : 10 ^ (k' - 1) = 10 ^ (k - 1) * 10 ^ (k' - k) := by
    rw [← pow_add]
    congr 1
    omega
  have h2 : 10 ^ k' = 10 ^ k * 10 ^ (k' - k) := by
    rw [← pow_add]
    congr 1
    omega
  rw [Digits, h1, h2]
  exact ⟨Nat.mul_le_mul_right _ h.1, Nat.mul_lt_mul_of_pos_right h.2 (by positivity)⟩

lemma decimal_pad (s : ℕ) (n : ℤ) (hle : k ≤ k') : decimal k' (s * 10 ^ (k' - k)) n = decimal k s n := by
  rw [decimal, decimal]
  push_cast
  rw [mul_assoc, ← zpow_natCast, ← zpow_add₀ (by norm_num)]
  congr 2
  omega

lemma decimal_carry (hk : 0 < k) (s : ℕ) (n : ℤ) : decimal k (carry k s n).1 (carry k s n).2 = decimal k s n := by
  rw [carry]
  split_ifs with h
  · subst h
    have ht : (10 : ℚ) ^ k = 10 ^ (k - 1) * 10 := by
      rw [← pow_succ, Nat.sub_add_cancel hk]
    simp only [decimal]
    push_cast
    rw [ht, show n + 1 - (k : ℤ) = (n - k) + 1 by ring, zpow_add_one₀ (by norm_num)]
    ring
  · rfl

lemma digits_carry (hk : 0 < k) (h1 : 10 ^ (k - 1) ≤ s) (h2 : s ≤ 10 ^ k) : Digits k (carry k s n).1 := by
  rw [carry]
  split_ifs with h
  · exact ⟨le_rfl, Nat.pow_lt_pow_right (by norm_num) (by omega)⟩
  · exact ⟨h1, by omega⟩

lemma decimal_magnitude (k s : ℕ) (x : ℚ) : decimal k s (magnitude x) = s * place k x := rfl

lemma decimal_below (hk : 0 < k) (x : ℚ) :
    decimal k (below k x).1 (below k x).2 = ⌊x / place k x⌋.toNat * place k x :=
  decimal_carry hk _ _

lemma decimal_above (hk : 0 < k) (x : ℚ) :
    decimal k (above k x).1 (above k x).2 = (⌊x / place k x⌋.toNat + 1) * place k x := by
  rw [above, decimal_carry hk, decimal_magnitude]
  push_cast
  ring

lemma above_sub_below (hk : 0 < k) (x : ℚ) :
    decimal k (above k x).1 (above k x).2 - decimal k (below k x).1 (below k x).2 = place k x := by
  rw [decimal_above hk x, decimal_below hk x]
  ring

section

variable (hk : 0 < k) (hx : 0 < x)

include hx

lemma pow_le_div_place (hk : 0 < k) : 10 ^ (k - 1) ≤ x / place k x := by
  rw [le_div_iff₀ (place_pos k x), pow_pred_mul_place hk]
  exact ten_zpow_le hx

lemma natCast_floor_div : ((⌊x / place k x⌋.toNat : ℕ) : ℤ) = ⌊x / place k x⌋ :=
  toNat_of_nonneg (floor_nonneg.mpr (div_nonneg hx.le (place_pos k x).le))

lemma floor_mul_place_le : (⌊x / place k x⌋.toNat : ℚ) * place k x ≤ x := by
  have h := floor_le (x / place k x)
  rw [← natCast_floor_div hx, cast_natCast, le_div_iff₀ (place_pos k x)] at h
  exact h

lemma lt_floor_mul_place : x < (⌊x / place k x⌋.toNat + 1 : ℚ) * place k x := by
  have h := lt_floor_add_one (x / place k x)
  rw [← natCast_floor_div hx, cast_natCast, div_lt_iff₀ (place_pos k x)] at h
  exact h

include hk

lemma digits_floor : Digits k ⌊x / place k x⌋.toNat := by
  constructor
  · have h : ((10 ^ (k - 1) : ℕ) : ℤ) ≤ ⌊x / place k x⌋ := by
      apply le_floor.mpr
      exact_mod_cast pow_le_div_place hx hk
    rw [← natCast_floor_div hx] at h
    exact_mod_cast h
  · have h : ((⌊x / place k x⌋.toNat : ℕ) : ℚ) * place k x < 10 ^ k * place k x := by
      rw [pow_mul_place]
      exact lt_of_le_of_lt (floor_mul_place_le hx) (lt_ten_zpow x)
    exact_mod_cast lt_of_mul_lt_mul_right h (place_pos k x).le

lemma below_eq : below k x = (⌊x / place k x⌋.toNat, magnitude x) := by
  rw [below, carry, if_neg (digits_floor hk hx).2.ne]

lemma digits_below : Digits k (below k x).1 := digits_carry hk (digits_floor hk hx).1 (digits_floor hk hx).2.le

lemma digits_above : Digits k (above k x).1 :=
  digits_carry hk (by have := (digits_floor hk hx).1; omega) (digits_floor hk hx).2

lemma decimal_below_le : decimal k (below k x).1 (below k x).2 ≤ x := by
  rw [decimal_below hk x]
  exact floor_mul_place_le hx

lemma lt_decimal_above : x < decimal k (above k x).1 (above k x).2 := by
  rw [decimal_above hk x]
  exact lt_floor_mul_place hx

lemma outside (hs : Digits k s) (n : ℤ) :
    decimal k s n ≤ decimal k (below k x).1 (below k x).2 ∨
      decimal k (above k x).1 (above k x).2 ≤ decimal k s n := by
  have hf := digits_floor hk hx
  rw [decimal_below hk x, decimal_above hk x]
  rcases lt_trichotomy n (magnitude x) with h | h | h
  · left
    have hf1 : (10 : ℚ) ^ (k - 1) ≤ ⌊x / place k x⌋.toNat := by exact_mod_cast hf.1
    calc decimal k s n ≤ 10 ^ n := (hs.decimal_lt n).le
      _ ≤ 10 ^ (magnitude x - 1) := zpow_le_zpow_right₀ (by norm_num) (by omega)
      _ = 10 ^ (k - 1) * place k x := (pow_pred_mul_place hk x).symm
      _ ≤ ⌊x / place k x⌋.toNat * place k x :=
        mul_le_mul_of_nonneg_right hf1 (place_pos k x).le
  · subst h
    rcases Nat.lt_or_ge ⌊x / place k x⌋.toNat s with h | h
    · right
      have h' : ((⌊x / place k x⌋.toNat : ℕ) : ℚ) + 1 ≤ s := by exact_mod_cast h
      exact mul_le_mul_of_nonneg_right h' (place_pos k x).le
    · left
      have h' : (s : ℚ) ≤ ⌊x / place k x⌋.toNat := by exact_mod_cast h
      exact mul_le_mul_of_nonneg_right h' (place_pos k x).le
  · right
    have hf2 : ((⌊x / place k x⌋.toNat : ℕ) : ℚ) + 1 ≤ 10 ^ k := by exact_mod_cast hf.2
    calc ((⌊x / place k x⌋.toNat : ℕ) + 1 : ℚ) * place k x ≤ 10 ^ k * place k x :=
          mul_le_mul_of_nonneg_right hf2 (place_pos k x).le
      _ = 10 ^ magnitude x := pow_mul_place k x
      _ ≤ 10 ^ (n - 1) := zpow_le_zpow_right₀ (by norm_num) (by omega)
      _ ≤ decimal k s n := hs.le_decimal hk n

lemma rounded_cases :
    (rounded k x = below k x ∧
      2 * (x - decimal k (below k x).1 (below k x).2) ≤ place k x ∧
      (2 * (x - decimal k (below k x).1 (below k x).2) = place k x → Even ⌊x / place k x⌋.toNat)) ∨
    (rounded k x = above k x ∧
      place k x ≤ 2 * (x - decimal k (below k x).1 (below k x).2) ∧
      (2 * (x - decimal k (below k x).1 (below k x).2) = place k x → ¬ Even ⌊x / place k x⌋.toNat)) := by
  have hp := place_pos k x
  have hc := natCast_floor_div (k := k) hx
  have hf : x - decimal k (below k x).1 (below k x).2 = (x / place k x - ⌊x / place k x⌋) * place k x := by
    rw [decimal_below hk x, sub_mul, div_mul_cancel₀ _ hp.ne', ← hc, cast_natCast, toNat_natCast]
  have he : Even ⌊x / place k x⌋.toNat ↔ ⌊x / place k x⌋ % 2 = 0 := by
    rw [← even_coe_nat, hc, even_iff]
  have hup : (⌊x / place k x⌋ + 1).toNat = ⌊x / place k x⌋.toNat + 1 := by omega
  rw [hf, he, rounded, below, above, roundEven]
  split_ifs with h1 h2 h3
  · exact .inl ⟨rfl, by nlinarith, fun h => by nlinarith⟩
  · exact .inr ⟨by rw [hup], by nlinarith, fun h => by nlinarith⟩
  · exact .inl ⟨rfl, by nlinarith, fun _ => h3⟩
  · exact .inr ⟨by rw [hup], by nlinarith, fun _ => h3⟩

lemma digits_rounded : Digits k (rounded k x).1 := by
  rcases rounded_cases hk hx with ⟨h, -⟩ | ⟨h, -⟩ <;> rw [h]
  · exact digits_below hk hx
  · exact digits_above hk hx

lemma abs_rounded_sub_le :
    |decimal k (rounded k x).1 (rounded k x).2 - x| ≤ place k x / 2 := by
  have hle := decimal_below_le hk hx
  have hlt := lt_decimal_above hk hx
  have hg := above_sub_below hk x
  rcases rounded_cases hk hx with ⟨h, hd, -⟩ | ⟨h, hd, -⟩ <;> rw [h]
  · rw [abs_of_nonpos (by linarith)]
    linarith
  · rw [abs_of_pos (by linarith)]
    linarith

lemma abs_rounded_sub_le_abs (hs : Digits k s) (n : ℤ) :
    |decimal k (rounded k x).1 (rounded k x).2 - x| ≤ |decimal k s n - x| := by
  have hle := decimal_below_le hk hx
  have hlt := lt_decimal_above hk hx
  have hg := above_sub_below hk x
  have hf : x - decimal k (below k x).1 (below k x).2 ≤ |decimal k s n - x| ∨
      decimal k (above k x).1 (above k x).2 - x ≤ |decimal k s n - x| := by
    rcases outside hk hx hs n with h | h
    · left
      rw [abs_of_nonpos (by linarith)]
      linarith
    · right
      rw [abs_of_pos (by linarith)]
      linarith
  rcases rounded_cases hk hx with ⟨h, hd, -⟩ | ⟨h, hd, -⟩ <;> rw [h]
  · rw [abs_of_nonpos (by linarith)]
    rcases hf with h' | h' <;> linarith
  · rw [abs_of_pos (by linarith)]
    rcases hf with h' | h' <;> linarith

end

end LeafWeb.Lib
