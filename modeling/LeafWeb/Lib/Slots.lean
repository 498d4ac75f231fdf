import Mathlib.Algebra.GroupWithZero.Nat

namespace LeafWeb.Lib

open List

variable {α : Type} {l : List α} {i : ℕ} {a b : α}

lemma sum_set_add (f : α → ℕ) (h : l[i]? = some a) : ((l.set i b).map f).sum + f a = (l.map f).sum + f b := by
  induction l generalizing i with
  | nil => simp at h
  | cons c l ih =>
    cases i with
    | zero =>
      simp only [getElem?_cons_zero, Option.some.injEq] at h
      subst h
      simp only [set_cons_zero, map_cons, sum_cons]
      omega
    | succ i =>
      have hh := ih (i := i) (by simpa using h)
      simp only [set_cons_succ, map_cons, sum_cons]
      omega

lemma countP_set_add {p : α → Bool} (h : l[i]? = some a) :
    (l.set i b).countP p + (if p a then 1 else 0) = l.countP p + (if p b then 1 else 0) := by
  have hs : ∀ l : List α, l.countP p = (l.map fun x => if p x then 1 else 0).sum := by
    intro l
    induction l with
    | nil => rfl
    | cons c l ih => simp [countP_cons, ih, add_comm]
  rw [hs, hs]
  exact sum_set_add _ h

lemma getElem?_set_of_some (h : l[i]? = some a) (j : ℕ) : (l.set i b)[j]? = if j = i then some b else l[j]? := by
  obtain ⟨hi, -⟩ := List.getElem?_eq_some_iff.mp h
  by_cases hj : j = i
  · simp [hj, hi]
  · simp [hj, Ne.symm hj]

end LeafWeb.Lib
