import LeafWeb.Lib.SignificantDigits

/-! The shortest decimal a reader takes back to a positive rational, as ECMA-262 describes it. -/

namespace LeafWeb.Lib

open Option

section

variable (reads : ℚ → Bool) (x : ℚ)

structure Shortest (k s : ℕ) (n : ℤ) : Prop where
  pos : 0 < k
  digits : Digits k s
  readsBack : reads (decimal k s n)
  least : ∀ {k' s' : ℕ} {n' : ℤ}, 0 < k' → Digits k' s' → reads (decimal k' s' n') → k ≤ k'
  closest : ∀ {s' : ℕ} {n' : ℤ}, Digits k s' → reads (decimal k s' n') →
    |decimal k s n - x| ≤ |decimal k s' n' - x|
  even : ∀ {s' : ℕ} {n' : ℤ}, Digits k s' → reads (decimal k s' n') →
    |decimal k s n - x| = |decimal k s' n' - x| → decimal k s' n' ≠ decimal k s n → Even s

/-- Of the two decimals of `k` digits around `x`, the closest that is read back. -/
def closestReading (k : ℕ) : Option (ℕ × ℤ) :=
  let low := below k x
  let high := above k x
  let under := x - decimal k low.1 low.2
  let beyond := decimal k high.1 high.2 - x
  if reads (decimal k low.1 low.2) && (!reads (decimal k high.1 high.2) || under < beyond ||
      (under = beyond && low.1 % 2 = 0)) then some low
  else if reads (decimal k high.1 high.2) then some high else none

def shortest (limit : ℕ) : Option (ℕ × ℕ × ℤ) :=
  ((List.range limit).find? fun i => (closestReading reads x (i + 1)).isSome).bind fun i =>
    (closestReading reads x (i + 1)).map fun d => (i + 1, d)

end

variable {reads : ℚ → Bool} {x : ℚ} {k s : ℕ} {n : ℤ}

lemma Shortest.not_dvd (h : Shortest reads x k s n) : ¬ 10 ∣ s := by
  rintro ⟨t, rfl⟩
  have hp := h.pos
  have hd := h.digits
  have htp : 0 < t := by
    have := hd.pos
    omega
  have hten : 10 ^ k = 10 * 10 ^ (k - 1) := by rw [← pow_succ', Nat.sub_add_cancel hp]
  have hlt : t < 10 ^ (k - 1) := by
    have := hd.2
    omega
  have hk : 1 < k := by
    by_contra hk
    rw [show k - 1 = 0 by omega] at hlt
    omega
  have hten' : 10 ^ (k - 1) = 10 * 10 ^ (k - 1 - 1) := by
    rw [← pow_succ', Nat.sub_add_cancel (by omega)]
  have ht : Digits (k - 1) t := by
    refine ⟨?_, hlt⟩
    have := hd.1
    omega
  have hv : decimal k (10 * t) n = decimal (k - 1) t n := by
    simp only [decimal]
    push_cast [Nat.cast_sub (show 1 ≤ k by omega)]
    rw [show n - ((k : ℤ) - 1) = (n - k) + 1 by ring, zpow_add_one₀ (by norm_num)]
    ring
  have hle := h.least (by omega) ht (hv ▸ h.readsBack)
  omega

lemma Shortest.eq_rounded (hx : 0 < x) (h : Shortest reads x k s n)
    (hr : reads (decimal k (rounded k x).1 (rounded k x).2)) : rounded k x = (s, n) := by
  have hk := h.pos
  have hle := decimal_below_le hk hx
  have hlt := lt_decimal_above hk hx
  have hg := above_sub_below hk x
  have hds : |decimal k s n - x| = |decimal k (rounded k x).1 (rounded k x).2 - x| :=
    le_antisymm (h.closest (digits_rounded hk hx) hr) (abs_rounded_sub_le_abs hk hx h.digits n)
  by_cases hne : decimal k (rounded k x).1 (rounded k x).2 = decimal k s n
  · obtain ⟨h1, h2⟩ := decimal_inj hk (digits_rounded hk hx) h.digits hne
    exact Prod.ext h1 h2
  exfalso
  have he := h.even (digits_rounded hk hx) hr hds hne
  have hf := digits_floor hk hx
  rcases rounded_cases hk hx with ⟨hc, hd, ht⟩ | ⟨hc, hd, ht⟩ <;> rw [hc] at hds hne
  · rw [abs_of_nonpos (by linarith : decimal k (below k x).1 (below k x).2 - x ≤ 0)] at hds
    rcases outside hk hx h.digits n with ho | ho
    · rw [abs_of_nonpos (by linarith)] at hds
      exact hne (by linarith)
    rw [abs_of_pos (by linarith)] at hds
    have hs : decimal k s n = decimal k (above k x).1 (above k x).2 := by linarith
    have hodd := ht (by linarith)
    have hne' : ⌊x / place k x⌋.toNat + 1 ≠ 10 ^ k := by
      intro heq
      have h10 : Even (10 ^ k) := (by decide : Even 10).pow_of_ne_zero hk.ne'
      rw [← heq, Nat.even_add_one] at h10
      exact h10 hodd
    rw [above, carry, if_neg hne'] at hs
    obtain ⟨rfl, -⟩ := decimal_inj hk h.digits ⟨by have := hf.1; omega, by
      have := hf.2; omega⟩ hs
    rw [Nat.even_add_one] at he
    exact he hodd
  · rw [abs_of_pos (by linarith : 0 < decimal k (above k x).1 (above k x).2 - x)] at hds
    rcases outside hk hx h.digits n with ho | ho
    · rw [abs_of_nonpos (by linarith)] at hds
      have hs : decimal k s n = decimal k (below k x).1 (below k x).2 := by linarith
      rw [below_eq hk hx] at hs
      obtain ⟨rfl, -⟩ := decimal_inj hk h.digits hf hs
      exact ht (by linarith) he
    · rw [abs_of_pos (by linarith)] at hds
      exact hne (by linarith)

section

variable (hx : 0 < x)
  (hbetween : ∀ {q r : ℚ}, 0 < q → 0 < r → reads q → q ≤ r ∧ r ≤ x ∨ x ≤ r ∧ r ≤ q → reads r)

include hx hbetween

lemma reads_around (hk : 0 < k) (hs : Digits k s) (h : reads (decimal k s n)) :
    reads (decimal k (below k x).1 (below k x).2) ∨ reads (decimal k (above k x).1 (above k x).2) := by
  have hle := decimal_below_le hk hx
  have hlt := lt_decimal_above hk hx
  rcases outside hk hx hs n with ho | ho
  · exact .inl (hbetween (decimal_pos hs) (decimal_pos (digits_below hk hx)) h (.inl ⟨ho, hle⟩))
  · exact .inr (hbetween (decimal_pos hs) (decimal_pos (digits_above hk hx)) h (.inr ⟨hlt.le, ho⟩))

lemma closestReading_isSome (hk : 0 < k) (hs : Digits k s) (h : reads (decimal k s n)) :
    (closestReading reads x k).isSome := by
  simp only [closestReading]
  rcases reads_around hx hbetween hk hs h with hr | hr
  · rw [hr, Bool.true_and]
    by_cases hh : reads (decimal k (above k x).1 (above k x).2)
    · split_ifs <;> rfl
    · rw [Bool.eq_false_iff.mpr hh]
      simp
  · split_ifs <;> rfl

variable (hcarry : reads (decimal 1 9 (magnitude x)) → 2 * x ≠ 19 * place 1 x)

include hcarry

lemma closestReading_spec (hk : 0 < k) (h : closestReading reads x k = some (s, n)) :
    Digits k s ∧ reads (decimal k s n) ∧
      ∀ {s' : ℕ} {n' : ℤ}, Digits k s' → reads (decimal k s' n') →
        |decimal k s n - x| ≤ |decimal k s' n' - x| ∧
        (|decimal k s n - x| = |decimal k s' n' - x| → decimal k s' n' ≠ decimal k s n → Even s) := by
  have hle := decimal_below_le hk hx
  have hlt := lt_decimal_above hk hx
  simp only [closestReading] at h
  split_ifs at h with hlow hh
  · simp only [Bool.and_eq_true, Bool.or_eq_true, Bool.not_eq_true', decide_eq_true_eq] at hlow
    obtain ⟨hr, hc⟩ := hlow
    obtain ⟨rfl, rfl⟩ : s = (below k x).1 ∧ n = (below k x).2 := by
      rw [some.inj h]
      exact ⟨rfl, rfl⟩
    refine ⟨digits_below hk hx, hr, ?_⟩
    intro s' n' hs' hr'
    rw [abs_of_nonpos (by linarith : decimal k (below k x).1 (below k x).2 - x ≤ 0)]
    rcases outside hk hx hs' n' with ho | ho
    · rw [abs_of_nonpos (by linarith)]
      exact ⟨by linarith, fun heq hne => absurd (by linarith) hne⟩
    rw [abs_of_pos (by linarith)]
    have hu : reads (decimal k (above k x).1 (above k x).2) = true :=
      hbetween (decimal_pos hs') (decimal_pos (digits_above hk hx)) hr' (.inr ⟨hlt.le, ho⟩)
    rcases hc with (hno | hcl) | ⟨ht, he⟩
    · rw [hno] at hu
      exact absurd hu (by decide)
    · exact ⟨by linarith, fun heq _ => absurd heq (by linarith)⟩
    · exact ⟨by linarith, fun _ _ => Nat.even_iff.mpr he⟩
  · obtain ⟨rfl, rfl⟩ : s = (above k x).1 ∧ n = (above k x).2 := by
      rw [some.inj h]
      exact ⟨rfl, rfl⟩
    refine ⟨digits_above hk hx, hh, ?_⟩
    intro s' n' hs' hr'
    rw [abs_of_pos (by linarith : 0 < decimal k (above k x).1 (above k x).2 - x)]
    rcases outside hk hx hs' n' with ho | ho
    · rw [abs_of_nonpos (by linarith)]
      have hl : reads (decimal k (below k x).1 (below k x).2) = true :=
        hbetween (decimal_pos hs') (decimal_pos (digits_below hk hx)) hr' (.inl ⟨ho, hle⟩)
      simp only [hl, Bool.true_and, Bool.or_eq_true, Bool.and_eq_true, decide_eq_true_eq, not_or, not_and] at hlow
      obtain ⟨hf, hodd⟩ := hlow
      refine ⟨by linarith, ?_⟩
      intro heq _
      have ht : x - decimal k (below k x).1 (below k x).2 =
          decimal k (above k x).1 (above k x).2 - x := by linarith
      have hodd' := hodd ht
      rw [below_eq hk hx] at hodd' hl
      rw [above, carry]
      split_ifs with hten
      · by_cases hone : k = 1
        · subst hone
          have hn : ⌊x / place 1 x⌋.toNat = 9 := by omega
          rw [decimal_below hk x, decimal_above hk x, hn] at ht
          rw [hn] at hl
          refine absurd ?_ (hcarry hl)
          push_cast at ht
          linarith
        · exact (by decide : Even 10).pow_of_ne_zero (by omega)
      · exact Nat.even_iff.mpr (by omega)
    · rw [abs_of_pos (by linarith)]
      exact ⟨by linarith, fun heq hne => absurd (by linarith) hne⟩

lemma shortest_spec {limit : ℕ} (h : shortest reads x limit = some (k, s, n)) : Shortest reads x k s n := by
  rw [shortest, bind_eq_some_iff] at h
  obtain ⟨i, hfn, hm⟩ := h
  obtain ⟨d, hd, heq⟩ := map_eq_some_iff.mp hm
  obtain ⟨rfl, rfl⟩ := Prod.mk.inj heq
  obtain ⟨-, -, hf⟩ := List.find?_range_eq_some.mp hfn
  obtain ⟨hdg, hrd, hs⟩ := closestReading_spec hx hbetween hcarry (Nat.succ_pos i) hd
  refine ⟨Nat.succ_pos i, hdg, hrd, ?_, fun hs' hr => (hs hs' hr).1, fun hs' hr => (hs hs' hr).2⟩
  intro k' s' n' hk' hs' hr
  by_contra hlt
  have hsm := closestReading_isSome hx hbetween hk' hs' hr
  have hn := hf (k' - 1) (by omega)
  rw [Nat.sub_add_cancel hk', hsm] at hn
  exact absurd hn (by decide)

end

end LeafWeb.Lib
