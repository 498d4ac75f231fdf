import Mathlib.Algebra.Group.Submonoid.BigOperators
import Mathlib.Algebra.Order.BigOperators.Group.List

namespace LeafWeb.Lib

open List

variable {R K : Type}

structure Table (key : R → K) where
  rows : List R
  distinct : (rows.map key).Nodup

namespace Table

variable {key : R → K}

def empty : Table key := ⟨[], nodup_nil⟩

def update (t : Table key) (f : R → R) (hf : ∀ r, key (f r) = key r) : Table key where
  rows := t.rows.map f
  distinct := by
    rw [map_map, show key ∘ f = key from funext hf]
    exact t.distinct

variable {r r' x : R} {t t' : Table key}

lemma eq_of_key (t : Table key) (hr : r ∈ t.rows) (hr' : r' ∈ t.rows) (hk : key r = key r') : r = r' :=
  inj_on_of_nodup_map t.distinct hr hr' hk

section

variable {M : Type} [AddCommMonoid M] (w : R → M)

def total (t : Table key) : M := (t.rows.map w).sum

lemma total_update (t : Table key) (f : R → R) (hf : ∀ r, key (f r) = key r) :
    total w (t.update f hf) = total (fun r => w (f r)) t := by
  simp only [total, update, map_map]
  rfl

variable {t : Table key}

lemma total_congr {v : R → M} (h : ∀ r ∈ t.rows, w r = v r) : total w t = total v t := by
  unfold total
  rw [map_congr_left h]

lemma total_le_total [Preorder M] [AddLeftMono M] [AddRightMono M] {w v : R → M}
    (h : ∀ r ∈ t.rows, w r ≤ v r) : total w t ≤ total v t :=
  sum_le_sum h

lemma total_mem {S : Type} [SetLike S M] [AddSubmonoidClass S M] {s : S} {w : R → M}
    (h : ∀ r ∈ t.rows, w r ∈ s) : total w t ∈ s := by
  refine list_sum_mem fun x hx => ?_
  obtain ⟨r, hr, rfl⟩ := mem_map.mp hx
  exact h r hr

end

variable [DecidableEq K]

def find (t : Table key) (k : K) : Option R := t.rows.find? (fun r => key r = k)

def insert (t : Table key) (r : R) : Option (Table key) :=
  -- `none` is the primary key violation.
  if h : key r ∈ t.rows.map key then none
  else some ⟨t.rows ++ [r], by
    rw [map_append]
    exact t.distinct.append (nodup_singleton _) (by simpa [disjoint_singleton] using h)⟩

def modify (t : Table key) (k : K) (f : R → R) (hf : ∀ r, key (f r) = key r) : Table key :=
  t.update (fun r => if key r = k then f r else r) (fun r => by split_ifs <;> simp [hf])

variable {k : K}

lemma find_some : t.find k = some r ↔ r ∈ t.rows ∧ key r = k := by
  constructor
  · intro h
    exact ⟨mem_of_find?_eq_some h, by simpa using find?_some h⟩
  rintro ⟨hr, rfl⟩
  cases h : t.find (key r) with
  | none => exact absurd (find?_eq_none.mp h r hr) (by simp)
  | some r' =>
    have hk : key r' = key r := by simpa using find?_some h
    rw [t.eq_of_key (mem_of_find?_eq_some h) hr hk]

lemma find_none : t.find k = none ↔ k ∉ t.rows.map key := by
  simp [find]

lemma find_key (h : t.find k = some r) : key r = k := (find_some.mp h).2

lemma mem_of_find (h : t.find k = some r) : r ∈ t.rows := (find_some.mp h).1

lemma length_filter_key (t : Table key) (k : K) : (t.rows.filter (fun r => key r = k)).length ≤ 1 := by
  have h := nodup_iff_count_le_one.mp t.distinct k
  rw [count_eq_countP, countP_map, countP_eq_length_filter] at h
  exact h

section

variable (h : t.insert r = some t')
include h

lemma insert_rows : t'.rows = t.rows ++ [r] ∧ t.find (key r) = none := by
  unfold insert at h
  split_ifs at h with hk
  cases h
  exact ⟨rfl, find_none.mpr hk⟩

lemma find_insert (k : K) : t'.find k = if k = key r then some r else t.find k := by
  obtain ⟨hr, hn⟩ := insert_rows h
  unfold find at hn ⊢
  rw [hr, find?_append]
  by_cases hk : k = key r
  · subst hk
    rw [hn, if_pos rfl]
    simp
  · have hne : key r ≠ k := fun he => hk he.symm
    simp [hk, hne]

lemma mem_insert : x ∈ t'.rows ↔ x ∈ t.rows ∨ x = r := by
  rw [(insert_rows h).1, mem_append, mem_singleton]

lemma forall_insert {P : R → Prop} : (∀ r ∈ t'.rows, P r) ↔ (∀ r ∈ t.rows, P r) ∧ P r := by
  simp [mem_insert h, or_imp, forall_and]

lemma find_insert_of_find (hr : t.find k = some x) : t'.find k = some x := by
  rw [find_insert h, if_neg, hr]
  rintro rfl
  rw [(insert_rows h).2] at hr
  cases hr

lemma isSome_find_insert (hk : (t.find k).isSome) : (t'.find k).isSome := by
  obtain ⟨r, hr⟩ := Option.isSome_iff_exists.mp hk
  exact Option.isSome_of_eq_some (find_insert_of_find h hr)

end

lemma find_update (t : Table key) (f : R → R) (hf : ∀ r, key (f r) = key r) (k : K) :
    (t.update f hf).find k = (t.find k).map f := by
  simp only [find, update, find?_map]
  congr 2
  funext r
  simp [hf]

lemma find_modify (t : Table key) (k : K) (f : R → R) (hf : ∀ r, key (f r) = key r) (k' : K) :
    (t.modify k f hf).find k' = if k' = k then (t.find k').map f else t.find k' := by
  rw [modify, find_update]
  cases h : t.find k' with
  | none => simp
  | some r =>
    have hk := find_key h
    by_cases hkk : k' = k
    all_goals simp [hk, hkk]

variable {f : R → R}

lemma find_modify_self (hf : ∀ r, key (f r) = key r) (h : t.find k = some r) :
    (t.modify k f hf).find k = some (f r) := by
  rw [find_modify, if_pos rfl, h, Option.map_some]

lemma mem_modify (hf : ∀ r, key (f r) = key r) (hr : r ∈ (t.modify k f hf).rows) :
    ∃ r₀ ∈ t.rows, key r = key r₀ ∧ (r = f r₀ ∨ r = r₀) := by
  obtain ⟨r₀, hr₀, rfl⟩ := mem_map.mp hr
  refine ⟨r₀, hr₀, ?_⟩
  split_ifs
  · exact ⟨hf r₀, .inl rfl⟩
  · exact ⟨rfl, .inr rfl⟩

section

variable {M : Type} [AddCommMonoid M] (w : R → M) {t : Table key}

lemma total_insert (h : t.insert r = some t') : total w t' = total w t + w r := by
  simp [total, (insert_rows h).1]

def rest (k : K) (t : Table key) : M := total (fun r => if key r = k then 0 else w r) t

lemma total_of_find (h : t.find k = some r) : total w t = w r + rest w k t := by
  obtain ⟨hr, hk⟩ := find_some.mp h
  have hg : ∀ rows : List R, (rows.map key).Nodup → r ∈ rows →
      (rows.map w).sum = w r + (rows.map fun x => if key x = k then 0 else w x).sum := by
    intro rows
    induction rows with
    | nil => intro _ hr; cases hr
    | cons x rows ih =>
      intro hnd hm
      rw [map_cons, nodup_cons] at hnd
      simp only [map_cons, sum_cons]
      obtain rfl | hm := mem_cons.mp hm
      · have hrs : (rows.map fun x => if key x = k then 0 else w x) = rows.map w := by
          refine map_congr_left fun y hy => ?_
          have hne : key y ≠ k := by
            intro hy'
            exact hnd.1 (hk ▸ hy' ▸ mem_map_of_mem hy)
          rw [if_neg hne]
        rw [hrs, if_pos hk, zero_add]
      · have hne : key x ≠ k := by
          intro hx
          exact hnd.1 (hx ▸ hk ▸ mem_map_of_mem hm)
        rw [if_neg hne, ih hnd.2 hm]
        ac_rfl
  exact hg t.rows t.distinct hr

lemma rest_modify (t : Table key) (k : K) (f : R → R) (hf : ∀ r, key (f r) = key r) :
    rest w k (t.modify k f hf) = rest w k t := by
  rw [rest, modify, total_update]
  refine total_congr _ fun r _ => ?_
  by_cases hk : key r = k
  · simp [hk, hf]
  · simp [hk]

lemma rest_insert (h : t.insert r = some t') : rest w (key r) t' = rest w (key r) t := by
  rw [rest, total_insert _ h, if_pos rfl, add_zero]
  rfl

lemma rest_le_rest [Preorder M] [AddLeftMono M] [AddRightMono M] {w v : R → M}
    (h : ∀ r ∈ t.rows, key r ≠ k → w r ≤ v r) : rest w k t ≤ rest v k t := by
  refine total_le_total fun r hr => ?_
  by_cases hk : key r = k
  · simp [hk]
  · simpa [hk] using h r hr hk

lemma rest_le_total [Preorder M] [AddLeftMono M] [AddRightMono M] {w : R → M}
    (h : ∀ r ∈ t.rows, 0 ≤ w r) : rest w k t ≤ total w t := by
  refine total_le_total fun r hr => ?_
  split_ifs
  · exact h r hr
  · exact le_rfl

end

structure Replaces (t : Table key) (k : K) (r : R) (t' : Table key) : Prop where
  row : t'.find k = some r
  rest : ∀ {M : Type} [AddCommMonoid M] (w : R → M), rest w k t' = rest w k t
  mem : ∀ x ∈ t'.rows, x = r ∨ x ∈ t.rows

namespace Replaces

variable {t t' : Table key}

lemma modify {r₀ : R} (h : t.find k = some r₀) (f : R → R) (hf : ∀ r, key (f r) = key r) :
    Replaces t k (f r₀) (t.modify k f hf) := by
  have hr : (t.modify k f hf).find k = some (f r₀) := by
    rw [find_modify, if_pos rfl, h]
    rfl
  refine ⟨hr, fun w => rest_modify w t k f hf, ?_⟩
  intro x hx
  by_cases hk : key x = k
  · exact .inl (Option.mem_unique (find_some.mpr ⟨hx, hk⟩) hr)
  have hxf : (t.modify k f hf).find (key x) = some x := find_some.mpr ⟨hx, rfl⟩
  rw [find_modify, if_neg hk] at hxf
  exact .inr (mem_of_find hxf)

lemma insert (h : t.insert r = some t') : Replaces t (key r) r t' := by
  refine ⟨by rw [find_insert h, if_pos rfl], fun w => rest_insert w h, ?_⟩
  intro x hx
  rw [(insert_rows h).1, mem_append, mem_singleton] at hx
  exact hx.symm

section

variable {M : Type} [AddCommMonoid M] {w v : R → M}

lemma total (h : Replaces t k r t') (w : R → M) : t'.total w = w r + t.rest w k := by
  rw [total_of_find w h.row, h.rest w]

variable [Preorder M] [AddLeftMono M] [AddRightMono M]

lemma total_le_of_zero (h : Replaces t k r t') (hr : w r = 0) (hv : ∀ x ∈ t.rows, 0 ≤ v x)
    (hrs : ∀ x ∈ t.rows, key x ≠ k → w x ≤ v x) : t'.total w ≤ t.total v := by
  rw [h.total, hr, zero_add]
  exact (rest_le_rest hrs).trans (rest_le_total hv)

end

end Replaces

end Table

end LeafWeb.Lib
