import LeafWeb.Lib.SortOn
import Mathlib.Algebra.Order.BigOperators.Group.List
import Mathlib.Data.Prod.Lex
import Mathlib.Data.Rat.Floor

namespace LeafWeb.Lib.LargestRemainder

open List Int

variable {A K : Type} [LinearOrder K] (key : A → K) (exact : A → ℚ) (whole : ℤ) (parts : List A)

def deficit : ℤ := whole - (parts.map fun a => ⌊exact a⌋).sum

/-- The order in which missing units are handed out: larger fraction first, then smaller key. -/
def order : List A := sortOn (fun a => toLex (-fract (exact a), key a)) parts

def topped : List A := (order key exact parts).take (deficit exact whole parts).toNat

def passed : List A := (order key exact parts).drop (deficit exact whole parts).toNat

def units [DecidableEq A] (a : A) : ℤ := ⌊exact a⌋ + if a ∈ topped key exact whole parts then 1 else 0

lemma perm_parts : (topped key exact whole parts ++ passed key exact whole parts).Perm parts := by
  rw [topped, passed, take_append_drop]
  exact sortOn_perm _ _

lemma sum_parts {M : Type} [AddCommMonoid M] (f : A → M) : (parts.map f).sum =
    ((topped key exact whole parts).map f).sum + ((passed key exact whole parts).map f).sum := by
  rw [← ((perm_parts key exact whole parts).map f).sum_eq, map_append, sum_append]

lemma sum_fract_lt {l : List A} (hl : l ≠ []) : (l.map fun a => fract (exact a)).sum < l.length := by
  have h := sum_lt_sum_of_ne_nil hl (fun a => fract (exact a)) (fun _ => 1) fun a _ => fract_lt_one _
  simpa using h

variable {key exact whole parts} {a b : A}

lemma fract_le (ha : a ∈ topped key exact whole parts) (hb : b ∈ passed key exact whole parts) :
    fract (exact b) ≤ fract (exact a) := by
  have hs := pairwise_sortOn (fun a => toLex (-fract (exact a), key a)) parts
  rw [← order, ← take_append_drop (deficit exact whole parts).toNat (order key exact parts)] at hs
  rcases Prod.Lex.le_iff.mp ((pairwise_append.mp hs).2.2 a ha b hb) with hlt | ⟨heq, -⟩
  · exact (neg_lt_neg_iff.mp hlt).le
  · exact (neg_inj.mp heq).ge

section

variable (hsum : (parts.map exact).sum = whole)
include hsum

lemma sum_fract : (parts.map fun a => fract (exact a)).sum = deficit exact whole parts := by
  have hs : ∀ l : List A, (l.map exact).sum =
      ((l.map fun a => ⌊exact a⌋).sum : ℤ) + (l.map fun a => fract (exact a)).sum := by
    intro l
    induction l with
    | nil => simp
    | cons a l ih =>
      simp only [map_cons, sum_cons, ih, cast_add]
      rw [add_add_add_comm, floor_add_fract]
  rw [deficit, cast_sub, ← hsum, hs parts, add_sub_cancel_left]

lemma deficit_nonneg : 0 ≤ deficit exact whole parts := by
  have h : (0 : ℚ) ≤ deficit exact whole parts := by
    rw [← sum_fract hsum]
    apply sum_nonneg
    simp only [mem_map]
    rintro _ ⟨a, -, rfl⟩
    exact fract_nonneg _
  exact_mod_cast h

lemma length_topped : ((topped key exact whole parts).length : ℤ) = deficit exact whole parts := by
  have hle : deficit exact whole parts ≤ parts.length := by
    rcases eq_or_ne parts [] with rfl | hp
    · have h := sum_fract hsum
      simp only [map_nil, sum_nil] at h
      exact_mod_cast h.ge
    · have h := sum_fract_lt exact hp
      rw [sum_fract hsum] at h
      exact_mod_cast h.le
  have hl : (order key exact parts).length = parts.length := length_sortOn
  have hn := deficit_nonneg hsum
  rw [topped, length_take, hl]
  omega

lemma fract_pos (ha : a ∈ topped key exact whole parts) : 0 < fract (exact a) := by
  by_contra hz
  have hp : ((passed key exact whole parts).map fun b => fract (exact b)).sum = 0 := by
    apply sum_eq_zero
    simp only [mem_map]
    rintro _ ⟨b, hb, rfl⟩
    exact le_antisymm ((fract_le ha hb).trans (not_lt.mp hz)) (fract_nonneg _)
  have hlt := sum_fract_lt exact (ne_nil_of_mem ha)
  have ht := sum_fract hsum
  rw [sum_parts key exact whole, hp, add_zero, ← length_topped (K := K) hsum] at ht
  rw [ht] at hlt
  exact lt_irrefl _ (by exact_mod_cast hlt)

variable [DecidableEq A]

lemma abs_units_sub (key : A → K) (a : A) : |(units key exact whole parts a : ℚ) - exact a| < 1 := by
  have hs := floor_add_fract (exact a)
  have hn := fract_nonneg (exact a)
  have hlt := fract_lt_one (exact a)
  rw [abs_sub_lt_iff, units]
  by_cases ha : a ∈ topped key exact whole parts
  · have hp := fract_pos hsum ha
    simp only [ha, if_true, cast_add, cast_one]
    constructor <;> linarith
  · simp only [ha, if_false, add_zero]
    constructor <;> linarith

lemma sum_units (key : A → K) (hn : parts.Nodup) : (parts.map (units key exact whole parts)).sum = whole := by
  have hs := (nodup_append.mp ((perm_parts key exact whole parts).nodup_iff.mpr hn)).2.2
  have ht : (parts.map fun a => if a ∈ topped key exact whole parts then (1 : ℤ) else 0).sum =
      deficit exact whole parts := by
    rw [sum_parts key exact whole, map_congr_left fun a ha => if_pos ha,
      map_congr_left fun a ha => if_neg fun hm => hs a hm a ha rfl]
    simpa using length_topped hsum
  have hu := sum_map_add (l := parts) (f := fun a => ⌊exact a⌋)
    (g := fun a => if a ∈ topped key exact whole parts then 1 else 0)
  exact hu.trans (by rw [ht, deficit, add_sub_cancel])

end

lemma units_nonneg [DecidableEq A] (key : A → K) (whole : ℤ) (parts : List A) (h : 0 ≤ exact a) :
    0 ≤ units key exact whole parts a := by
  apply add_nonneg (floor_nonneg.mpr h)
  split_ifs <;> decide

lemma units_mono [DecidableEq A] (key : A → K) (whole : ℤ) (hb : b ∈ parts) (h : exact a < exact b) :
    units key exact whole parts a ≤ units key exact whole parts b := by
  have hf : ⌊exact a⌋ ≤ ⌊exact b⌋ := floor_mono h.le
  unfold units
  rcases hf.lt_or_eq with hlt | heq
  · split_ifs <;> omega
  by_cases ht : a ∈ topped key exact whole parts
  · have hb' : b ∈ topped key exact whole parts := by
      refine (mem_append.mp ((perm_parts key exact whole parts).mem_iff.mpr hb)).resolve_right fun hp => ?_
      have hle := fract_le ht hp
      rw [fract, fract, heq] at hle
      exact absurd h (by linarith)
    rw [if_pos ht, if_pos hb', heq]
  · split_ifs <;> omega

end LeafWeb.Lib.LargestRemainder
