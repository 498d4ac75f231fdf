import LeafWeb.Lib.Table

namespace LeafWeb.Lib

open Option Prod List

variable {K V : Type}

abbrev Dict (K V : Type) := Table (fst : K × V → K)

namespace Dict

variable [DecidableEq K]

def get (d : Dict K V) (k : K) : Option V := (d.find k).map snd

def set (d : Dict K V) (k : K) (v : V) : Dict K V :=
  match d.insert (k, v) with
  | some d' => d'
  | none => d.modify k (fun p => (p.1, v)) (fun _ => rfl)

def pop (d : Dict K V) (k : K) : Dict K V where
  rows := d.rows.filter (fun p => p.1 ≠ k)
  distinct := (filter_sublist.map fst).nodup d.distinct

def compact (d : Dict K (Option V)) : Dict K V where
  rows := d.rows.filterMap fun p => p.2.map fun v => (p.1, v)
  distinct := by
    have hsub : ∀ rows : List (K × Option V),
        ((rows.filterMap fun p => p.2.map fun v => (p.1, v)).map fst).Sublist (rows.map fst) := by
      intro rows
      induction rows with
      | nil => exact List.Sublist.refl _
      | cons p rows ih =>
        obtain ⟨k, v⟩ := p
        cases v with
        | none => exact ih.cons k
        | some v => exact ih.cons_cons k
    exact (hsub d.rows).nodup d.distinct

@[simp] lemma get_empty (k : K) : get (Table.empty : Dict K V) k = none := rfl

variable {d : Dict K V} {k : K} {v : V}

lemma get_some : d.get k = some v ↔ (k, v) ∈ d.rows := by
  constructor
  · intro h
    obtain ⟨⟨k', v'⟩, hf, rfl⟩ := map_eq_some_iff.mp h
    obtain ⟨hm, rfl⟩ := Table.find_some.mp hf
    exact hm
  · intro h
    have hf : d.find k = some (k, v) := Table.find_some.mpr ⟨h, rfl⟩
    simp [get, hf]

lemma get_none : d.get k = none ↔ k ∉ d.rows.map fst := by
  rw [get, map_eq_none_iff, Table.find_none]

lemma get_set (d : Dict K V) (k : K) (v : V) (k' : K) :
    (d.set k v).get k' = if k' = k then some v else d.get k' := by
  unfold set
  split
  next d' h =>
    rw [get, Table.find_insert h]
    split_ifs <;> rfl
  rename_i h
  have hk : d.get k ≠ none := by
    intro hn
    rw [get_none] at hn
    simp [Table.insert, hn] at h
  rw [get, Table.find_modify]
  by_cases hkk : k' = k
  · subst hkk
    obtain ⟨v', hv⟩ := ne_none_iff_exists'.mp hk
    obtain ⟨p, hp, -⟩ := map_eq_some_iff.mp hv
    simp [hp]
  · simp [hkk, get]

lemma get_pop (d : Dict K V) (k k' : K) : (d.pop k).get k' = if k' = k then none else d.get k' := by
  by_cases hk : k' = k
  · subst hk
    rw [if_pos rfl, get_none]
    simp [pop]
  rw [if_neg hk]
  have hi : ∀ v, (d.pop k).get k' = some v ↔ d.get k' = some v := by
    intro v
    rw [get_some, get_some]
    simp [pop, hk]
  exact ext hi

lemma get_compact (d : Dict K (Option V)) (k : K) : d.compact.get k = (d.get k).join := by
  apply ext
  intro v
  rw [get_some, join_eq_some_iff, get_some]
  simp only [compact, mem_filterMap, map_eq_some_iff, mk.injEq]
  constructor
  · rintro ⟨⟨k', v'⟩, hm, w, hw, rfl, rfl⟩
    simp only at hw
    rwa [hw] at hm
  · intro hm
    exact ⟨(k, some v), hm, v, rfl, rfl, rfl⟩

lemma rows_eq_nil : d.rows = [] ↔ ∀ k, d.get k = none := by
  constructor
  · intro h k
    simp [get_none, h]
  intro h
  apply eq_nil_iff_forall_not_mem.mpr
  rintro ⟨k, v⟩ hm
  have hk := h k
  rw [get_some.mpr hm] at hk
  cases hk

section

variable {M : Type} [AddCommMonoid M] (w : K × V → M) {v₀ : V}

lemma find_of_get (h : d.get k = some v) : d.find k = some (k, v) := Table.find_some.mpr ⟨get_some.mp h, rfl⟩

lemma set_of_get (h : d.get k = some v₀) (v : V) : d.set k v = d.modify k (fun p => (p.1, v)) (fun _ => rfl) := by
  have hk : k ∈ d.rows.map fst := by
    by_contra hk
    rw [← get_none, h] at hk
    cases hk
  simp [set, Table.insert, dif_pos hk]

lemma total_set_some (h : d.get k = some v₀) (v : V) : (d.set k v).total w + w (k, v₀) = d.total w + w (k, v) := by
  have hr := Table.Replaces.modify (find_of_get h) (fun p => (p.1, v)) (fun _ => rfl)
  rw [set_of_get h, hr.total w, Table.total_of_find w (find_of_get h)]
  ac_rfl

lemma total_set_none (h : d.get k = none) (v : V) : (d.set k v).total w = d.total w + w (k, v) := by
  have hk : k ∉ d.rows.map fst := get_none.mp h
  unfold set
  split
  next d' hd =>
    exact Table.total_insert w hd
  next hd =>
    simp [Table.insert, hk] at hd

lemma total_pop (h : d.get k = some v) : d.total w = w (k, v) + (d.pop k).total w := by
  have hg : ∀ rows : List (K × V), ((rows.filter fun p => p.1 ≠ k).map w).sum =
      (rows.map fun p => if p.1 = k then 0 else w p).sum := by
    intro rows
    induction rows with
    | nil => rfl
    | cons p rows ih =>
      by_cases hp : p.1 = k
      · simpa [hp] using ih
      · simpa [hp] using congrArg (w p + ·) ih
  rw [Table.total_of_find w (find_of_get h)]
  exact congrArg (w (k, v) + ·) (hg d.rows).symm

end

end Dict

end LeafWeb.Lib
