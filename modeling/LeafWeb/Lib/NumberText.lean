import Mathlib.Data.List.DropRight
import Mathlib.Data.Rat.Floor
import Mathlib.Tactic.Positivity

namespace LeafWeb.Lib

open List Nat

def partition (sep : Char) (t : List Char) : List Char × List Char :=
  (t.takeWhile (· ≠ sep), (t.dropWhile (· ≠ sep)).drop 1)

def assemble (whole fraction exponent : List Char) : List Char :=
  whole ++ (if fraction = [] then [] else '.' :: fraction) ++ (if exponent = [] then [] else 'e' :: exponent)

def mantissaText (t : List Char) : List Char := (partition 'e' t).1

def exponentText (t : List Char) : List Char := (partition 'e' t).2

def wholeText (t : List Char) : List Char := (partition '.' (mantissaText t)).1

def fractionText (t : List Char) : List Char := (partition '.' (mantissaText t)).2

def intText : List Char → ℤ
  | '-' :: ds => -(ofDigitChars 10 ds 0 : ℤ)
  | '+' :: ds => ofDigitChars 10 ds 0
  | ds => ofDigitChars 10 ds 0

def textValue (t : List Char) : ℚ :=
  ofDigitChars 10 (wholeText t ++ fractionText t) 0 * 10 ^ (intText (exponentText t) - (fractionText t).length)

def signed (n : ℤ) : List Char := if 0 ≤ n then '+' :: toDigits 10 n.toNat else '-' :: toDigits 10 (-n).toNat

def zeros (n : ℕ) : List Char := replicate n '0'

def layout (digits : List Char) (n : ℤ) : List Char :=
  if digits.length ≤ n ∧ n ≤ 21 then digits ++ zeros (n.toNat - digits.length)
  else if 0 < n ∧ n ≤ 21 then digits.take n.toNat ++ '.' :: digits.drop n.toNat
  else if -6 < n ∧ n ≤ 0 then '0' :: '.' :: zeros (-n).toNat ++ digits
  else assemble (digits.take 1) (digits.drop 1) (signed (n - 1))

def stripEnd (digits : List Char) : List Char := digits.rdropWhile (· = '0')

variable {whole fraction exponent digits ds es : List Char} {n : ℤ} {j s k : ℕ} {sep : Char}

def numeral (c : Char) : Bool := c.isDigit || c = '.' || c = 'e' || c = '+' || c = '-'

lemma partition_append (h : ∀ c ∈ ds, c ≠ sep) : partition sep (ds ++ sep :: es) = (ds, es) := by
  have ht : ds.takeWhile (· ≠ sep) = ds := by
    rw [takeWhile_eq_self_iff]
    intro c hc
    exact decide_eq_true (h c hc)
  have hdr : ds.dropWhile (· ≠ sep) = [] := by
    rw [dropWhile_eq_nil_iff]
    intro c hc
    exact decide_eq_true (h c hc)
  rw [partition, takeWhile_append, dropWhile_append, ht, hdr]
  simp

lemma partition_of_notMem (h : ∀ c ∈ ds, c ≠ sep) : partition sep ds = (ds, []) := by
  have ht : ds.takeWhile (· ≠ sep) = ds := by
    rw [takeWhile_eq_self_iff]
    intro c hc
    exact decide_eq_true (h c hc)
  have hdr : ds.dropWhile (· ≠ sep) = [] := by
    rw [dropWhile_eq_nil_iff]
    intro c hc
    exact decide_eq_true (h c hc)
  rw [partition, ht, hdr, drop_nil]

variable {c : Char}

section

variable (exponent) (hwhole : ∀ c ∈ whole, c.isDigit) (hfraction : ∀ c ∈ fraction, c.isDigit)

private lemma ne_of_isDigit {d : Char} (h : c.isDigit) (hd : d.isDigit = false) : c ≠ d := by
  rintro rfl
  rw [h] at hd
  exact absurd hd (by decide)

include hwhole hfraction

lemma mantissaText_assemble :
    mantissaText (assemble whole fraction exponent) = whole ++ (if fraction = [] then [] else '.' :: fraction) ∧
    exponentText (assemble whole fraction exponent) = exponent := by
  have hno : ∀ c ∈ whole ++ (if fraction = [] then [] else '.' :: fraction), c ≠ 'e' := by
    intro c hc
    rcases mem_append.mp hc with hc | hc
    · exact ne_of_isDigit (hwhole c hc) (by decide)
    split_ifs at hc
    · exact absurd hc not_mem_nil
    rcases mem_cons.mp hc with rfl | hc
    · decide
    · exact ne_of_isDigit (hfraction c hc) (by decide)
  rw [mantissaText, exponentText, assemble]
  split_ifs with h1 h2 h2
  all_goals simp only [h1, if_true, if_false] at hno
  · rw [append_nil, partition_of_notMem hno, h2]
    exact ⟨rfl, rfl⟩
  · rw [partition_append hno]
    exact ⟨rfl, rfl⟩
  · rw [append_nil, partition_of_notMem hno, h2]
    exact ⟨rfl, rfl⟩
  · rw [partition_append hno]
    exact ⟨rfl, rfl⟩

lemma wholeText_assemble : wholeText (assemble whole fraction exponent) = whole ∧
    fractionText (assemble whole fraction exponent) = fraction := by
  have hno : ∀ c ∈ whole, c ≠ '.' := fun c hc => ne_of_isDigit (hwhole c hc) (by decide)
  rw [wholeText, fractionText, (mantissaText_assemble exponent hwhole hfraction).1]
  split_ifs with h
  · rw [append_nil, partition_of_notMem hno, h]
    exact ⟨rfl, rfl⟩
  · rw [partition_append hno]
    exact ⟨rfl, rfl⟩

lemma textValue_assemble : textValue (assemble whole fraction exponent) =
    ofDigitChars 10 (whole ++ fraction) 0 * 10 ^ (intText exponent - fraction.length) := by
  obtain ⟨hw, hf⟩ := wholeText_assemble exponent hwhole hfraction
  rw [textValue, hw, hf, (mantissaText_assemble exponent hwhole hfraction).2]

end

lemma intText_signed (n : ℤ) : intText (signed n) = n := by
  rw [signed]
  split_ifs with h
  · rw [intText, ofDigitChars_ten_toDigits]
    exact Int.toNat_of_nonneg h
  · rw [intText, ofDigitChars_ten_toDigits]
    omega

lemma isDigit_zeros (h : c ∈ zeros j) : c.isDigit := by
  rw [eq_of_mem_replicate h]
  decide

@[simp] lemma length_zeros (j : ℕ) : (zeros j).length = j := length_replicate

lemma ofDigitChars_append_zeros (ds : List Char) (j : ℕ) :
    ofDigitChars 10 (ds ++ zeros j) 0 = 10 ^ j * ofDigitChars 10 ds 0 := by
  rw [ofDigitChars_append, zeros, ofDigitChars_replicate_zero]

lemma ofDigitChars_zeros_append (j : ℕ) (ds : List Char) :
    ofDigitChars 10 (zeros j ++ ds) 0 = ofDigitChars 10 ds 0 := by
  rw [ofDigitChars_append, zeros, ofDigitChars_replicate_zero, mul_zero]

lemma exists_append_zeros (ds : List Char) : ∃ j, ds = stripEnd ds ++ zeros j := by
  refine ⟨(ds.rtakeWhile (· = '0')).length, ?_⟩
  have hz : ds.rtakeWhile (· = '0') = zeros (ds.rtakeWhile (· = '0')).length := by
    apply eq_replicate_of_mem
    intro c hc
    have h := mem_rtakeWhile_imp hc
    exact of_decide_eq_true h
  rw [← hz]
  exact rdropWhile_append_rtakeWhile.symm

lemma stripEnd_append_zeros (ds : List Char) (j : ℕ) : stripEnd (ds ++ zeros j) = stripEnd ds := by
  induction j with
  | zero => rw [zeros, replicate_zero, append_nil]
  | succ j ih =>
    rw [zeros, replicate_succ', ← append_assoc, stripEnd, rdropWhile_concat_pos _ _ _ (by decide)]
    exact ih

lemma stripEnd_append_stripEnd (ds es : List Char) : stripEnd (ds ++ stripEnd es) = stripEnd (ds ++ es) := by
  obtain ⟨j, hj⟩ := exists_append_zeros es
  conv_rhs => rw [hj, ← append_assoc, stripEnd_append_zeros]

@[simp] lemma stripEnd_stripEnd (ds : List Char) : stripEnd (stripEnd ds) = stripEnd ds :=
  rdropWhile_idempotent _ _

lemma mem_of_mem_stripEnd (h : c ∈ stripEnd ds) : c ∈ ds := by
  obtain ⟨j, hj⟩ := exists_append_zeros ds
  rw [hj]
  exact mem_append_left _ h

lemma ofDigitChars_mul_stripEnd (ds es : List Char) (z : ℤ) :
    (ofDigitChars 10 (ds ++ stripEnd es) 0 : ℚ) * 10 ^ (z - (stripEnd es).length) =
      ofDigitChars 10 (ds ++ es) 0 * 10 ^ (z - es.length) := by
  obtain ⟨j, hj⟩ := exists_append_zeros es
  have hl : (es.length : ℤ) = (stripEnd es).length + j := by
    conv_lhs => rw [hj]
    simp
  have ha : ds ++ es = (ds ++ stripEnd es) ++ zeros j := by
    rw [append_assoc, ← hj]
  rw [ha, hl, ← sub_sub, ofDigitChars_append_zeros, zpow_sub₀ (by norm_num) _ (j : ℤ), zpow_natCast]
  push_cast
  field_simp

lemma stripEnd_append_of_ne_nil (ds : List Char) (h : stripEnd es ≠ []) :
    stripEnd (ds ++ es) = ds ++ stripEnd es := by
  rw [← stripEnd_append_stripEnd]
  apply rdropWhile_eq_self_iff.mpr
  intro hl
  rw [getLast_append_of_ne_nil hl h]
  exact rdropWhile_last_not _ _ h

def Leads (ds : List Char) : Prop := ∃ c cs, ds = c :: cs ∧ c ≠ '0'

lemma leads_toDigits (h : 0 < s) : Leads (toDigits 10 s) := by
  induction s using Nat.strong_induction_on with
  | _ s ih =>
    rw [toDigits_eq_if (by norm_num)]
    split_ifs with hlt
    · refine ⟨_, _, rfl, ?_⟩
      rw [ne_eq, digitChar_eq_zero]
      omega
    · obtain ⟨c, cs, hcn, hc⟩ := ih (s / 10) (by omega) (by omega)
      exact ⟨c, cs ++ [(s % 10).digitChar], by rw [hcn, cons_append], hc⟩

lemma Leads.dropWhile (h : Leads ds) (j : ℕ) : (zeros j ++ ds).dropWhile (· = '0') = ds := by
  obtain ⟨c, cs, rfl, hc⟩ := h
  have hz : (zeros j).dropWhile (· = '0') = [] := by
    rw [dropWhile_eq_nil_iff]
    intro c hc
    rw [eq_of_mem_replicate hc]
    decide
  rw [dropWhile_append, hz, dropWhile_cons_of_neg (by simpa using hc)]
  rfl

lemma Leads.stripEnd_ne_nil (h : Leads ds) : stripEnd ds ≠ [] := by
  obtain ⟨c, cs, rfl, hc⟩ := h
  intro hn
  have ha := rdropWhile_eq_nil_iff.mp hn c mem_cons_self
  exact hc (of_decide_eq_true ha)

lemma Leads.stripEnd (h : Leads ds) : Leads (stripEnd ds) := by
  obtain ⟨j, hj⟩ := exists_append_zeros ds
  obtain ⟨d, es, hes⟩ := exists_cons_of_ne_nil h.stripEnd_ne_nil
  obtain ⟨c, cs, hcn, hc⟩ := h
  rw [hes, hcn, cons_append, cons.injEq] at hj
  exact ⟨d, es, hes, hj.1 ▸ hc⟩

lemma Leads.take_append (h : Leads ds) (hj : 0 < j) (es : List Char) : Leads (ds.take j ++ es) := by
  obtain ⟨c, cs, rfl, hc⟩ := h
  obtain ⟨j, rfl⟩ := exists_eq_succ_of_ne_zero hj.ne'
  exact ⟨c, cs.take j ++ es, by simp, hc⟩

lemma stripEnd_toDigits (h : ¬ 10 ∣ s) : stripEnd (toDigits 10 s) = toDigits 10 s := by
  have hl : (s % 10).digitChar ≠ '0' := by
    rw [ne_eq, digitChar_eq_zero]
    omega
  rw [toDigits_eq_if (by norm_num)]
  split_ifs with hlt
  · have hdg : s.digitChar ≠ '0' := by rwa [mod_eq_of_lt hlt] at hl
    rw [stripEnd, rdropWhile_singleton, if_neg (by simpa using hdg)]
  · rw [stripEnd, rdropWhile_concat_neg _ _ _ (by simpa using hl)]

lemma length_toDigits (hk : 0 < k) (h1 : 10 ^ (k - 1) ≤ s) (h2 : s < 10 ^ k) : (toDigits 10 s).length = k := by
  refine le_antisymm ((length_toDigits_le_iff (by norm_num) hk).mpr h2) ?_
  by_contra hlt
  by_cases ho : k = 1
  · have := length_toDigits_pos (b := 10) (n := s)
    omega
  · have := (length_toDigits_le_iff (b := 10) (n := s) (k := k - 1) (by norm_num) (by omega)).mp (by omega)
    omega

lemma isDigit_toDigits (h : c ∈ toDigits 10 s) : c.isDigit := isDigit_of_mem_toDigits (by norm_num) (by norm_num) h

lemma layout_ne_nil (h : digits ≠ []) (n : ℤ) : layout digits n ≠ [] := by
  rw [layout]
  split_ifs
  · simp [h]
  · simp
  · simp
  · simp [assemble, h]

section

variable (hd : ∀ c ∈ digits, c.isDigit) (hne : digits ≠ [])

include hd hne

lemma textValue_layout (n : ℤ) :
    textValue (layout digits n) = ofDigitChars 10 digits 0 * 10 ^ (n - digits.length) := by
  have ht : ∀ k, ∀ c ∈ digits.take k, c.isDigit := fun k c hc => hd c (mem_of_mem_take hc)
  have hdp : ∀ k, ∀ c ∈ digits.drop k, c.isDigit := fun k c hc => hd c (mem_of_mem_drop hc)
  have hl : 0 < digits.length := length_pos_iff.mpr hne
  rw [layout]
  split_ifs with h1 h2 h3
  · have hall : ∀ c ∈ digits ++ zeros (n.toNat - digits.length), c.isDigit := by
      intro c hc
      exact (mem_append.mp hc).elim (hd c) isDigit_zeros
    have hv := textValue_assemble [] hall (by simp : ∀ c ∈ ([] : List Char), c.isDigit)
    simp only [assemble, if_true, append_nil] at hv
    rw [hv, ofDigitChars_append_zeros]
    have hp : (10 : ℚ) ^ (n - digits.length) = 10 ^ (n.toNat - digits.length) := by
      rw [← zpow_natCast]
      congr 1
      omega
    rw [hp]
    simp [intText]
    ring
  · have hv := textValue_assemble [] (ht n.toNat) (hdp n.toNat)
    have hdr : digits.drop n.toNat ≠ [] := by
      rw [ne_eq, drop_eq_nil_iff]
      omega
    simp only [assemble, if_true, if_neg hdr, append_nil] at hv
    rw [hv, take_append_drop, length_drop]
    congr 2
    simp only [intText, ofDigitChars_nil]
    omega
  · have hall : ∀ c ∈ zeros (-n).toNat ++ digits, c.isDigit := by
      intro c hc
      exact (mem_append.mp hc).elim isDigit_zeros (hd c)
    have hv := textValue_assemble [] (by simp : ∀ c ∈ ['0'], c.isDigit) hall
    have ha : zeros (-n).toNat ++ digits ≠ [] := by simp [hne]
    simp only [assemble, if_true, if_neg ha, append_nil] at hv
    rw [show '0' :: '.' :: zeros (-n).toNat ++ digits = ['0'] ++ '.' :: (zeros (-n).toNat ++ digits) by simp, hv]
    rw [show ['0'] ++ (zeros (-n).toNat ++ digits) = zeros 1 ++ (zeros (-n).toNat ++ digits) from rfl,
      ofDigitChars_zeros_append, ofDigitChars_zeros_append, length_append, length_zeros]
    congr 2
    simp only [intText, ofDigitChars_nil]
    omega
  · rw [textValue_assemble _ (ht 1) (hdp 1), take_append_drop, intText_signed, length_drop]
    congr 2
    omega

omit hne in
lemma numeral_layout (h : c ∈ layout digits n) : numeral c := by
  have hdg : ∀ c : Char, c.isDigit → numeral c := by
    intro c hc
    simp [numeral, hc]
  have hs : ∀ c ∈ signed (n - 1), numeral c := by
    intro c hc
    rw [signed] at hc
    split_ifs at hc
    all_goals
      rcases mem_cons.mp hc with rfl | hc
      · decide
      · exact hdg c (isDigit_toDigits hc)
  rw [layout] at h
  split_ifs at h with h1 h2 h3
  · exact hdg c ((mem_append.mp h).elim (hd c) isDigit_zeros)
  · rcases mem_append.mp h with h | h
    · exact hdg c (hd c (mem_of_mem_take h))
    · rcases mem_cons.mp h with rfl | h
      · decide
      · exact hdg c (hd c (mem_of_mem_drop h))
  · rcases mem_append.mp h with h | h
    · rcases mem_cons.mp h with rfl | h
      · decide
      · rcases mem_cons.mp h with rfl | h
        · decide
        · exact hdg c (isDigit_zeros h)
    · exact hdg c (hd c h)
  · simp only [assemble, mem_append] at h
    rcases h with (h | h) | h
    · exact hdg c (hd c (mem_of_mem_take h))
    · split_ifs at h
      · exact absurd h not_mem_nil
      · rcases mem_cons.mp h with rfl | h
        · decide
        · exact hdg c (hd c (mem_of_mem_drop h))
    · split_ifs at h
      · exact absurd h not_mem_nil
      · rcases mem_cons.mp h with rfl | h
        · decide
        · exact hs c h

end

end LeafWeb.Lib
