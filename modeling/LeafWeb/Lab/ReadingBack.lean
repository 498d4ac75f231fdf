import LeafWeb.Lab.Binary64
import Mathlib.Tactic.LinearCombination
import Mathlib.Tactic.NormNum.Prime

namespace LeafWeb.Lab

open Lib List Nat Option Binary64

namespace Binary64

variable {x : Binary64} {q r : ℚ}

lemma magnitude_nonneg (x : Binary64) : 0 ≤ x.magnitude := by
  rw [magnitude]
  positivity

lemma magnitude_pos (h : x.value ≠ 0) : 0 < x.magnitude := by
  refine lt_of_le_of_ne x.magnitude_nonneg ?_
  intro hz
  apply h
  rw [value, ← hz, neg_zero, ite_self]

lemma readsBack_iff : readsBack x q ↔ nearest 53 (-1074) q = x.significand * 2 ^ x.exponent := decide_eq_true_iff

lemma readsBack_of_between (hq : 0 < q) (hr : 0 < r) (h : readsBack x q)
    (hb : q ≤ r ∧ r ≤ x.magnitude ∨ x.magnitude ≤ r ∧ r ≤ q) : readsBack x r :=
  readsBack_iff.mpr (nearest_eq_of_between (by norm_num) x.normal hq hr (readsBack_iff.mp h) hb)

lemma significand_pos (hx : 0 < x.magnitude) : 0 < x.significand := by
  exact_mod_cast pos_of_mul_pos_left hx (by positivity)

lemma readsBack_seventeen (hx : 0 < x.magnitude) :
    readsBack x (decimal 17 (rounded 17 x.magnitude).1 (rounded 17 x.magnitude).2) := by
  have hpos : (0 : ℚ) < 2 ^ x.exponent := by positivity
  have hd := digits_rounded (k := 17) (by norm_num) hx
  have he := abs_rounded_sub_le (k := 17) (by norm_num) hx
  have hp : place 17 x.magnitude * 10 ^ 16 ≤ x.magnitude := by
    have h := ten_zpow_le hx
    rw [← pow_pred_mul_place (k := 17) (by norm_num), mul_comm] at h
    exact h
  have hlt : (x.significand : ℚ) + 1 ≤ 2 ^ 53 := by exact_mod_cast x.normal.lt
  rw [readsBack_iff]
  by_cases hb : Boundary 53 (-1074) x.significand x.exponent
  · apply nearest_eq_of_close (by norm_num) x.normal (decimal_pos hd)
    refine lt_of_le_of_lt he ?_
    have hm : (x.significand : ℚ) = 2 ^ 52 := by exact_mod_cast hb.1
    have hx' : x.magnitude = 2 ^ 52 * 2 ^ x.exponent := by rw [magnitude, hm]
    linarith
  · rw [nearest_eq_iff (by norm_num) x.normal (decimal_pos hd) hb]
    left
    refine lt_of_le_of_lt he ?_
    have hm : x.magnitude < 2 ^ 53 * 2 ^ x.exponent := mul_lt_mul_of_pos_right (by linarith) hpos
    linarith

variable {n : ℤ}

private lemma nineteen_dvd {m : ℕ} {e : ℤ} (h : 2 * ((m : ℚ) * 2 ^ e) = 19 * 10 ^ n) : 19 ∣ m := by
  have hn : 2 * m * 2 ^ (e + (-e).toNat).toNat * 10 ^ (-n).toNat =
      19 * (10 ^ (n + (-n).toNat).toNat * 2 ^ (-e).toNat) := by
    have h2 : (2 : ℚ) ^ (e + (-e).toNat).toNat = 2 ^ e * 2 ^ (-e).toNat := by
      rw [← zpow_natCast, ← zpow_natCast, ← zpow_add₀ (by norm_num)]
      congr 1
      omega
    have h10 : (10 : ℚ) ^ (n + (-n).toNat).toNat = 10 ^ n * 10 ^ (-n).toNat := by
      rw [← zpow_natCast, ← zpow_natCast, ← zpow_add₀ (by norm_num)]
      congr 1
      omega
    have hq : (2 : ℚ) * m * 2 ^ (e + (-e).toNat).toNat * 10 ^ (-n).toNat =
        19 * (10 ^ (n + (-n).toNat).toNat * 2 ^ (-e).toNat) := by
      rw [h2, h10]
      linear_combination (2 : ℚ) ^ (-e).toNat * 10 ^ (-n).toNat * h
    exact_mod_cast hq
  have hp : Nat.Prime 19 := by norm_num
  have hd : 19 ∣ 2 * m * 2 ^ (e + (-e).toNat).toNat * 10 ^ (-n).toNat := ⟨_, hn⟩
  rcases (hp.dvd_mul).mp hd with h1 | h1
  · rcases (hp.dvd_mul).mp h1 with h2 | h2
    · rcases (hp.dvd_mul).mp h2 with h3 | h3
      · omega
      · exact h3
    · exact absurd (hp.dvd_of_dvd_pow h2) (by norm_num)
  · exact absurd (hp.dvd_of_dvd_pow h1) (by norm_num)

lemma no_carry_tie (hx : 0 < x.magnitude) (h : readsBack x (decimal 1 9 (Lib.magnitude x.magnitude))) :
    2 * x.magnitude ≠ 19 * place 1 x.magnitude := by
  intro ht
  have hp : (0 : ℚ) < 2 ^ x.exponent := by positivity
  have hd : Digits 1 9 := ⟨by norm_num, by norm_num⟩
  have hc := abs_sub_le_of_nearest_eq (by norm_num) x.normal (decimal_pos hd) (readsBack_iff.mp h)
  rw [decimal_magnitude, ← magnitude, abs_of_nonpos (by push_cast; linarith [place_pos 1 x.magnitude])] at hc
  have hs : x.significand < 19 := by
    have hlt : (x.significand : ℚ) * 2 ^ x.exponent < 19 * 2 ^ x.exponent := by
      rw [← magnitude]
      linarith
    exact_mod_cast lt_of_mul_lt_mul_right hlt hp.le
  have hdvd := nineteen_dvd (m := x.significand) (e := x.exponent) ht
  exact absurd (le_of_dvd (significand_pos hx) hdvd) (by omega)

lemma shortest_isSome (hx : 0 < x.magnitude) :
    ∃ k s n, shortest (readsBack x) x.magnitude 17 = some (k, s, n) := by
  have hs := closestReading_isSome hx readsBack_of_between (by norm_num)
    (digits_rounded (k := 17) (by norm_num) hx) (readsBack_seventeen hx)
  have hf : ((range 17).find? fun i =>
      (closestReading (readsBack x) x.magnitude (i + 1)).isSome).isSome := by
    rw [find?_isSome]
    exact ⟨16, by decide, hs⟩
  obtain ⟨i, hi⟩ := isSome_iff_exists.mp hf
  have hc := find?_some hi
  obtain ⟨d, hd⟩ := isSome_iff_exists.mp hc
  exact ⟨i + 1, d.1, d.2, by rw [shortest, hi, bind_some, hd, map_some]⟩

end Binary64

variable {p k s : ℕ} {x : ℚ}

lemma intText_exponentField (power : ℤ) : intText (exponentField power) = power := by
  have hp : ∀ ds : List Char, ofDigitChars 10 (if ds.length < 2 then '0' :: ds else ds) 0 =
      ofDigitChars 10 ds 0 := by
    intro ds
    split_ifs
    · exact ofDigitChars_zeros_append 1 ds
    · rfl
  simp only [exponentField]
  by_cases h : 0 ≤ power
  · rw [if_pos h, intText, hp, ofDigitChars_ten_toDigits]
    omega
  · rw [if_neg h, intText, hp, ofDigitChars_ten_toDigits]
    omega

lemma formatParts_spec (hp : 0 < p) (hx : 0 < x) :
    (∀ c ∈ (formatParts p x).1, c.isDigit) ∧ (formatParts p x).1 ≠ [] ∧
    (∀ c ∈ (formatParts p x).2.1, c.isDigit) ∧
    ∃ j ds, (formatParts p x).1 ++ (formatParts p x).2.1 = zeros j ++ ds ∧ Leads ds ∧
      stripEnd ds = stripEnd (toDigits 10 (rounded p x).1) ∧
      (formatParts p x).1.length + intText (formatParts p x).2.2 - j = (rounded p x).2 := by
  have hd := digits_rounded hp hx
  have hlen := length_toDigits hp hd.1 hd.2
  have hl := leads_toDigits hd.pos
  have hdg : ∀ c ∈ toDigits 10 (rounded p x).1, c.isDigit := fun c => isDigit_toDigits
  have hne : toDigits 10 (rounded p x).1 ≠ [] := toDigits_ne_nil
  simp only [formatParts]
  split_ifs with hr hpos
  · refine ⟨fun c hc => hdg c (mem_of_mem_take hc), ?_,
      fun c hc => hdg c (mem_of_mem_drop (mem_of_mem_stripEnd hc)),
      0, (toDigits 10 (rounded p x).1).take _ ++ _, rfl, hl.take_append (by omega) _, ?_, ?_⟩
    · rw [ne_eq, take_eq_nil_iff]
      rintro (h | h)
      · omega
      · exact hne h
    · rw [stripEnd_append_stripEnd, take_append_drop]
    · rw [length_take, hlen]
      simp only [intText, ofDigitChars_nil]
      omega
  · have hs := stripEnd_append_of_ne_nil (zeros (-(rounded p x).2).toNat) hl.stripEnd_ne_nil
    refine ⟨by simp, by simp, ?_, 1 + (-(rounded p x).2).toNat, _, ?_, hl.stripEnd,
      stripEnd_stripEnd _, ?_⟩
    · intro c hc
      rcases mem_append.mp (mem_of_mem_stripEnd hc) with h | h
      · exact isDigit_zeros h
      · exact hdg c h
    · rw [hs, zeros, zeros, replicate_add, append_assoc]
      rfl
    · simp only [length_singleton, intText, ofDigitChars_nil]
      omega
  · refine ⟨fun c hc => hdg c (mem_of_mem_take hc), ?_,
      fun c hc => hdg c (mem_of_mem_drop (mem_of_mem_stripEnd hc)),
      0, (toDigits 10 (rounded p x).1).take 1 ++ _, rfl, hl.take_append one_pos _, ?_, ?_⟩
    · rw [ne_eq, take_eq_nil_iff]
      rintro (h | h)
      · omega
      · exact hne h
    · rw [stripEnd_append_stripEnd, take_append_drop]
    · rw [length_take, hlen, intText_exponentField]
      omega

lemma ofDigitChars_rounded {ds : List Char} (hp : 0 < p) (hx : 0 < x)
    (h : stripEnd ds = stripEnd (toDigits 10 (rounded p x).1)) :
    (ofDigitChars 10 ds 0 : ℚ) * 10 ^ ((rounded p x).2 - ds.length) = decimal p (rounded p x).1
    (rounded p x).2 := by
  have hd := digits_rounded hp hx
  have hds := ofDigitChars_mul_stripEnd [] ds (rounded p x).2
  have hes := ofDigitChars_mul_stripEnd [] (toDigits 10 (rounded p x).1) (rounded p x).2
  simp only [nil_append] at hds hes
  rw [← hds, h, hes, ofDigitChars_ten_toDigits, length_toDigits hp hd.1 hd.2]
  rfl

lemma textValue_formatText (hp : 0 < p) (hx : 0 < x) :
    textValue (formatText p x) = decimal p (rounded p x).1 (rounded p x).2 := by
  obtain ⟨hw, -, hf, j, ds, hds, hl, hs, hpn⟩ := formatParts_spec hp hx
  have hlen := congrArg length hds
  rw [length_append, length_append, length_zeros] at hlen
  rw [formatText, textValue_assemble _ hw hf, hds, ofDigitChars_zeros_append, ← ofDigitChars_rounded hp hx hs]
  congr 2
  omega

lemma serverLayout_eq {digits : List Char} (hne : digits ≠ []) (n : ℤ) :
    serverLayout digits n = layout digits n := by
  have hl : 0 < digits.length := length_pos_iff.mpr hne
  have ha : digits.take 1 ++ (if 1 < digits.length then '.' :: digits.drop 1 else []) ++
      'e' :: signed (n - 1) = assemble (digits.take 1) (digits.drop 1) (signed (n - 1)) := by
    have hs : signed (n - 1) ≠ [] := by
      rw [signed]
      split_ifs <;> simp
    rw [assemble, if_neg hs]
    by_cases ho : 1 < digits.length
    · rw [if_pos ho, if_neg (by rw [drop_eq_nil_iff]; omega)]
    · rw [if_neg ho, if_pos (by rw [drop_eq_nil_iff]; omega)]
  rw [serverLayout, layout]
  by_cases h1 : 0 < n ∧ n ≤ 21
  · rw [if_pos h1]
    by_cases h2 : (digits.length : ℤ) ≤ n
    · rw [if_pos h2, if_pos ⟨h2, h1.2⟩]
    · rw [if_neg h2, if_neg (fun h => h2 h.1), if_pos h1]
  · have h2 : ¬ ((digits.length : ℤ) ≤ n ∧ n ≤ 21) := fun h => h1 ⟨by omega, h.2⟩
    simp only [if_neg h1, if_neg h2]
    by_cases h3 : -6 < n ∧ n ≤ 0
    · rw [if_pos h3, if_pos h3]
    · rw [if_neg h3, if_neg h3]
      exact ha

lemma head_formatText (hp : 0 < p) (hx : 0 < x) :
    (formatText p x).head? ≠ some '-' ∧ (formatText p x).dropWhile (· = '-') = formatText p x := by
  obtain ⟨hw, hne, -⟩ := formatParts_spec hp hx
  obtain ⟨c, cs, hc⟩ := exists_cons_of_ne_nil hne
  have hd : c ≠ '-' := by
    rintro rfl
    exact absurd (hw '-' (by rw [hc]; exact mem_cons_self)) (by decide)
  have ht : ∃ ds, formatText p x = c :: ds := by
    rw [formatText, assemble, hc]
    exact ⟨_, rfl⟩
  obtain ⟨ds, hds⟩ := ht
  rw [hds, dropWhile_cons_of_neg (by simpa using hd)]
  exact ⟨by simpa using hd, rfl⟩

variable {y : Binary64}

lemma rewrite_format (hp : 0 < p) (hy : 0 < y.magnitude) :
    rewrite (format p y) = (if y.negative then ['-'] else []) ++
      layout (stripEnd (toDigits 10 (rounded p y.magnitude).1)) (rounded p y.magnitude).2 := by
  obtain ⟨hw, -, hf, j, ds, hds, hl, hs, hpn⟩ := formatParts_spec hp hy
  obtain ⟨hh, hd⟩ := head_formatText hp hy
  have hb : (format p y).dropWhile (· = '-') = formatText p y.magnitude := by
    rw [format]
    split_ifs
    · rw [singleton_append, dropWhile_cons_of_pos (by decide), hd]
    · exact hd
  have hsg : (if (format p y).head? = some '-' then ['-'] else []) = if y.negative then ['-'] else [] := by
    rw [format]
    cases y.negative
    · rw [if_neg Bool.false_ne_true, nil_append, if_neg hh]
    · rfl
  obtain ⟨hwh, hfr⟩ := wholeText_assemble (formatParts p y.magnitude).2.2 hw hf
  have he := (mantissaText_assemble (formatParts p y.magnitude).2.2 hw hf).2
  have hlen : (zeros j ++ ds).length - ds.length = j := by simp
  rw [rewrite, hb, hsg, formatText, hwh, hfr, he, hds, hl.dropWhile, hlen, hpn, hs, serverLayout_eq]
  rw [← hs]
  exact hl.stripEnd_ne_nil

lemma float_format (hp : 0 < p) (hy : 0 < y.magnitude) :
    float (format p y) = y.value ↔
      readsBack y (decimal p (rounded p y.magnitude).1 (rounded p y.magnitude).2) := by
  have hr : float64 (textValue (formatText p y.magnitude)) = y.magnitude ↔
      readsBack y (decimal p (rounded p y.magnitude).1 (rounded p y.magnitude).2) := by
    rw [textValue_formatText hp hy, readsBack, decide_eq_true_iff]
  rw [← hr, format, value]
  cases y.negative
  · have hf : float (formatText p y.magnitude) = float64 (textValue (formatText p y.magnitude)) := by
      obtain ⟨hh, -⟩ := head_formatText hp hy
      generalize formatText p y.magnitude = t at hh
      unfold float
      split
      · exact absurd rfl hh
      · rfl
    rw [if_neg Bool.false_ne_true, nil_append, if_neg Bool.false_ne_true, hf]
  · exact neg_inj

def signText (y : Binary64) : List Char := if y.negative then ['-'] else []

lemma serverNumber_eq (hy : y.value ≠ 0) :
    ∃ p, 0 < p ∧ readsBack y (decimal p (rounded p y.magnitude).1 (rounded p y.magnitude).2) ∧
      (∀ p', 0 < p' → readsBack y (decimal p' (rounded p' y.magnitude).1 (rounded p' y.magnitude).2) → p ≤ p') ∧
      serverNumber y = some (signText y ++
        layout (stripEnd (toDigits 10 (rounded p y.magnitude).1)) (rounded p y.magnitude).2) := by
  have hp := magnitude_pos hy
  have hs : ((range 17).find? fun i => float (format (i + 1) y) = y.value).isSome := by
    rw [find?_isSome]
    exact ⟨16, by decide, decide_eq_true ((float_format (by norm_num) hp).mpr (readsBack_seventeen hp))⟩
  obtain ⟨i, hi⟩ := isSome_iff_exists.mp hs
  obtain ⟨hr, -, hf⟩ := find?_range_eq_some.mp hi
  refine ⟨i + 1, succ_pos i, (float_format (succ_pos i) hp).mp (of_decide_eq_true hr),
    ?_, ?_⟩
  · intro p' hp' hr'
    by_contra hlt
    have hn := hf (p' - 1) (by omega)
    rw [Nat.sub_add_cancel hp', decide_eq_true ((float_format hp' hp).mpr hr')] at hn
    exact absurd hn (by decide)
  · rw [serverNumber, if_neg hy, hi, map_some, rewrite_format (succ_pos i) hp]
    rfl

lemma browserNumber_eq (hy : y.value ≠ 0) :
    ∃ k s n, Shortest (readsBack y) y.magnitude k s n ∧
      browserNumber y = some (signText y ++ layout (toDigits 10 s) n) := by
  have hp := magnitude_pos hy
  obtain ⟨k, s, n, h⟩ := shortest_isSome hp
  refine ⟨k, s, n, ?_, ?_⟩
  · exact shortest_spec hp readsBack_of_between (no_carry_tie hp) h
  rw [browserNumber, if_neg hy, h]
  rfl

lemma numbers_eq {n : ℤ} (hy : y.value ≠ 0) (hs : Shortest (readsBack y) y.magnitude k s n)
    (hr : readsBack y (decimal k (rounded k y.magnitude).1 (rounded k y.magnitude).2)) :
    serverNumber y = some (signText y ++ layout (toDigits 10 s) n) := by
  have hpos := magnitude_pos hy
  obtain ⟨p, hp, hrd, hf, ht⟩ := serverNumber_eq hy
  have hpk : p = k := le_antisymm (hf k hs.pos hr) (hs.least hp (digits_rounded hp hpos) hrd)
  subst hpk
  rw [ht, hs.eq_rounded hpos hr, stripEnd_toDigits hs.not_dvd]

end LeafWeb.Lab
