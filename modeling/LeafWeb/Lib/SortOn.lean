import Mathlib.Data.List.Nodup
import Mathlib.Order.Lattice

namespace LeafWeb.Lib

open List

variable {A K : Type} [LinearOrder K] (key : A → K)

def sortOn (l : List A) : List A := l.mergeSort fun a b => key a ≤ key b

variable {key} {l m : List A}

lemma sortOn_perm (key : A → K) (l : List A) : (sortOn key l).Perm l := mergeSort_perm _ _

@[simp] lemma mem_sortOn {a : A} : a ∈ sortOn key l ↔ a ∈ l := (sortOn_perm key l).mem_iff

@[simp] lemma length_sortOn : (sortOn key l).length = l.length := (sortOn_perm key l).length_eq

@[simp] lemma sortOn_nil : sortOn key [] = [] := by simp [sortOn]

lemma pairwise_sortOn (key : A → K) (l : List A) : (sortOn key l).Pairwise fun a b => key a ≤ key b := by
  have h : (sortOn key l).Pairwise fun a b => decide (key a ≤ key b) = true := by
    apply pairwise_mergeSort
    · intro a b c hab hbc
      exact decide_eq_true (le_trans (of_decide_eq_true hab) (of_decide_eq_true hbc))
    · intro a b
      simpa using le_total (key a) (key b)
  exact h.imp of_decide_eq_true

lemma sortOn_of_pairwise (h : l.Pairwise fun a b => key a ≤ key b) : sortOn key l = l :=
  mergeSort_of_pairwise (h.imp fun hab => decide_eq_true hab)

@[simp] lemma sortOn_sortOn : sortOn key (sortOn key l) = sortOn key l :=
  sortOn_of_pairwise (pairwise_sortOn key l)

lemma sortOn_of_map_eq (h : l.map key = (sortOn key m).map key) : sortOn key l = l := by
  apply sortOn_of_pairwise
  have hs : ((sortOn key m).map key).Pairwise (· ≤ ·) := pairwise_map.mpr (pairwise_sortOn key m)
  rw [← h] at hs
  exact pairwise_map.mp hs

lemma sortOn_eq_of_perm (h : l.Perm m) (hl : (l.map key).Nodup) : sortOn key l = sortOn key m := by
  apply Perm.eq_of_pairwise _ (pairwise_sortOn key l) (pairwise_sortOn key m)
  · exact (sortOn_perm key l).trans (h.trans (sortOn_perm key m).symm)
  intro a b ha hb hab hba
  have hb' : b ∈ l := h.mem_iff.mpr (mem_sortOn.mp hb)
  exact inj_on_of_nodup_map hl (mem_sortOn.mp ha) hb' (le_antisymm hab hba)

lemma nodup_map_sortOn {L : Type} {f : A → L} : ((sortOn key l).map f).Nodup ↔ (l.map f).Nodup :=
  ((sortOn_perm key l).map f).nodup_iff

end LeafWeb.Lib
