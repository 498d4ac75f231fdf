import Mathlib.Data.List.PeriodicityLemma

namespace LeafWeb.Lib

open List Nat

variable {α : Type} {w u : List α} {i k m p : ℕ}

/-- The first `k` letters are also the last `k` of the first `i`. -/
def Border (w : List α) (i k : ℕ) : Prop := k ≤ i ∧ ∀ j < k, w[j]? = w[j + (i - k)]?

lemma border_zero (w : List α) (i : ℕ) : Border w i 0 := ⟨i.zero_le, nofun⟩

lemma border_succ (h : k ≤ i) : Border w (i + 1) (k + 1) ↔ Border w i k ∧ w[k]? = w[i]? := by
  have hi : k + (i - k) = i := by omega
  simp only [Border, Nat.add_sub_add_right, Nat.add_le_add_iff_right, Nat.forall_lt_succ_right, hi, and_assoc]

lemma Border.trans (h : Border w i m) (hm : Border w m k) : Border w i k := by
  refine ⟨hm.1.trans h.1, fun j hj => ?_⟩
  have hk := hm.1
  have hi := h.1
  rw [hm.2 j hj, h.2 _ (by omega), show j + (m - k) + (i - m) = j + (i - k) by omega]

lemma Border.of_le (h : Border w i m) (hk : Border w i k) (hl : k ≤ m) : Border w m k := by
  refine ⟨hl, fun j hj => ?_⟩
  have hi := h.1
  rw [hk.2 j hj, h.2 (j + (m - k)) (by omega), show j + (m - k) + (i - m) = j + (i - k) by omega]

lemma border_length (h : k ≤ w.length) : Border w w.length k ↔ w.HasPeriod (w.length - k) := by
  rw [hasPeriod_iff_getElem?, Nat.sub_sub_self h]
  exact and_iff_right h

def Longest (w : List α) (i k : ℕ) : Prop := (k < i ∧ Border w i k) ∧ ∀ m < i, Border w i m → m ≤ k

/-- No border of the first `i` letters that the next letter extends is longer than `m`. -/
def Candidate (w : List α) (i m : ℕ) : Prop := (m < i ∧ Border w i m) ∧ ∀ k < i, Border w i k →
    w[k]? = w[i]? → k ≤ m

lemma Longest.candidate (h : Longest w i m) : Candidate w i m := ⟨h.1, fun k hk hb _ => h.2 k hk hb⟩

lemma Candidate.next (h : Candidate w i m) (hn : w[i]? ≠ w[m]?) (hl : Longest w m k) : Candidate w i k := by
  refine ⟨⟨hl.1.1.trans h.1.1, h.1.2.trans hl.1.2⟩, fun j hj hb he => ?_⟩
  have hle := h.2 j hj hb he
  have hne : j ≠ m := by
    rintro rfl
    exact hn he.symm
  exact hl.2 j (by omega) (h.1.2.of_le hb hle)

lemma Candidate.longest (h : Candidate w i m) (he : w[i]? = w[m]?) : Longest w (i + 1) (m + 1) := by
  refine ⟨⟨succ_lt_succ h.1.1, (border_succ h.1.1.le).mpr ⟨h.1.2, he.symm⟩⟩, ?_⟩
  rintro (_ | k) hk hb
  · exact zero_le _
  · rw [border_succ (by omega)] at hb
    exact succ_le_succ (h.2 k (by omega) hb.1 hb.2)

lemma Candidate.longest_zero (h : Candidate w i 0) (hn : w[i]? ≠ w[0]?) : Longest w (i + 1) 0 := by
  refine ⟨⟨i.succ_pos, border_zero w _⟩, ?_⟩
  rintro (_ | k) hk hb
  · exact le_refl 0
  · rw [border_succ (by omega)] at hb
    obtain rfl := le_zero.mp (h.2 k (by omega) hb.1 hb.2)
    exact absurd hb.2.symm hn

lemma Longest.period (h : Longest w w.length k) : w.HasPeriod (w.length - k) ∧
    ∀ p, 0 < p → w.HasPeriod p → w.length - k ≤ p := by
  refine ⟨(border_length h.1.1.le).mp h.1.2, fun p hp hw => ?_⟩
  rcases lt_or_ge w.length p with hl | hl
  · omega
  have hb := h.2 (w.length - p) (by omega)
  rw [border_length (by omega), Nat.sub_sub_self hl] at hb
  have := hb hw
  omega

lemma getElem?_power (u : List α) (k : ℕ) (h : i < k * u.length) :
    (replicate k u).flatten[i]? = u[i % u.length]? := by
  induction k generalizing i with
  | zero => omega
  | succ k ih =>
    rw [replicate_succ, flatten_cons, getElem?_append]
    split
    next hi => rw [mod_eq_of_lt hi]
    next hi =>
      rw [succ_mul] at h
      rw [ih (by omega), ← mod_eq_sub_mod (by omega)]

lemma length_power (u : List α) (k : ℕ) : (replicate k u).flatten.length = k * u.length := by
  rw [length_flatten, map_replicate, sum_replicate_nat]

lemma hasPeriod_power (u : List α) (k : ℕ) : (replicate k u).flatten.HasPeriod u.length := by
  rw [hasPeriod_iff_forall_getElem?_mod, length_power]
  intro i hi
  rw [getElem?_power u k hi, getElem?_power u k ((mod_le i _).trans_lt hi), mod_mod]

lemma power_of_hasPeriod (h : w.HasPeriod p) (hp : p ≤ w.length) (hd : w.length = p * k) :
    w = (replicate k (w.take p)).flatten := by
  have hl : (w.take p).length = p := length_take_of_le hp
  have hn : (replicate k (w.take p)).flatten.length = w.length := by rw [length_power, hl, hd, mul_comm]
  apply ext_getElem? fun i => ?_
  rcases lt_or_ge i w.length with hi | hi
  · have hp : 0 < p := Nat.pos_of_mul_pos_right (hd ▸ Nat.zero_lt_of_lt hi)
    rw [getElem?_power _ k (by rwa [← length_power, hn]), hl, getElem?_take_of_lt (mod_lt i hp),
      h.getElem?_mod p i w hi]
  · rw [getElem?_eq_none hi, getElem?_eq_none (hn.symm ▸ hi)]

lemma Longest.root (h : Longest w w.length k) (hw : w = (replicate m u).flatten) (h₀ : 0 < w.length) :
    w.length - k ≤ u.length ∧ (w.length - k ∣ w.length ∨ w.length ≤ u.length) := by
  obtain ⟨hk, hmin⟩ := h.period
  have hlen : w.length = m * u.length := hw ▸ length_power u m
  have hu : w.HasPeriod u.length := hw ▸ hasPeriod_power u m
  have hpos : 0 < u.length := Nat.pos_of_mul_pos_left (hlen ▸ h₀)
  have hle := hmin _ hpos hu
  refine ⟨hle, ?_⟩
  rcases lt_or_ge m 2 with hm | hm
  · right
    exact hlen.trans_le ((mul_le_mul_right _ (le_of_lt_succ hm)).trans (one_mul _).le)
  · left
    have htwo := mul_le_mul_right u.length hm
    have hg := hmin _ (gcd_pos_of_pos_right _ hpos) (hk.gcd hu (by omega))
    have heq := Nat.le_antisymm (Nat.gcd_le_left _ (Nat.sub_pos_of_lt h.1.1)) hg
    exact (gcd_eq_left_iff_dvd.mp heq).trans ⟨m, hlen.trans (mul_comm _ _)⟩

end LeafWeb.Lib
