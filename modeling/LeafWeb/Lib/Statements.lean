import LeafWeb.Lib.Table

namespace LeafWeb.Lib.Table

open List Option

variable {R K : Type} {key : R → K} {t t' : Table key} {p : R → Bool} {f : R → R}

def updateWhere (t : Table key) (p : R → Bool) (f : R → R) (hf : ∀ r, key (f r) = key r) : Table key :=
  t.update (fun r => if p r then f r else r) (fun r => by split_ifs <;> simp [hf])

variable {r x r₀ : R}

lemma mem_updateWhere {hf : ∀ r, key (f r) = key r} :
    r ∈ (t.updateWhere p f hf).rows ↔ ∃ r₀ ∈ t.rows, (if p r₀ then f r₀ else r₀) = r :=
  mem_map

lemma forall_updateWhere (hf : ∀ r, key (f r) = key r) {P : R → Prop} :
    (∀ r ∈ (t.updateWhere p f hf).rows, P r) ↔ ∀ r ∈ t.rows, (p r → P (f r)) ∧ (¬p r → P r) := by
  constructor
  · intro h r hr
    have hu := h _ (mem_updateWhere.mpr ⟨r, hr, rfl⟩)
    split_ifs at hu with hp
    · exact ⟨fun _ => hu, fun hn => absurd hp hn⟩
    · exact ⟨fun hy => absurd hy hp, fun _ => hu⟩
  · intro h r hr
    obtain ⟨r₀, hr₀, rfl⟩ := mem_updateWhere.mp hr
    split_ifs with hp
    · exact (h r₀ hr₀).1 hp
    · exact (h r₀ hr₀).2 hp

lemma updateWhere_none (hf : ∀ r, key (f r) = key r) : t.updateWhere (fun _ => false) f hf = t := by
  simp [updateWhere, update]

def deleteWhere (t : Table key) (p : R → Bool) : Table key where
  rows := t.rows.filter fun r => !p r
  distinct := (filter_sublist.map key).nodup t.distinct

lemma mem_deleteWhere : r ∈ (t.deleteWhere p).rows ↔ r ∈ t.rows ∧ ¬p r := by
  simp [deleteWhere]

variable [DecidableEq K] {k : K}

lemma find_deleteWhere : (t.deleteWhere p).find k = some r ↔ t.find k = some r ∧ ¬p r := by
  simp only [find_some, mem_deleteWhere]
  tauto

lemma find_updateWhere (hf : ∀ r, key (f r) = key r) (k : K) :
    (t.updateWhere p f hf).find k = (t.find k).map fun r => if p r then f r else r :=
  find_update t _ _ k

def upsert (t : Table key) (r : R) (f : R → R) (hf : ∀ r, key (f r) = key r) : Table key :=
  (t.insert r).getD (t.modify (key r) f hf)

lemma find_upsert (hf : ∀ r, key (f r) = key r) (r : R) (k : K) :
    (t.upsert r f hf).find k = if k = key r then some ((t.find k).elim r f) else t.find k := by
  unfold upsert
  cases h : t.insert r with
  | none =>
    have ht : key r ∈ t.rows.map key := by
      by_contra hfr
      simp [insert, hfr] at h
    rw [getD_none, find_modify]
    split_ifs with hk
    · obtain ⟨r₀, hr₀⟩ : ∃ r₀, t.find k = some r₀ := by
        rw [← ne_none_iff_exists']
        intro hn
        exact find_none.mp hn (hk ▸ ht)
      rw [hr₀]
      rfl
    · rfl
  | some t' =>
    rw [getD_some, find_insert h]
    split_ifs with hk
    · rw [hk, (insert_rows h).2]
      rfl
    · rfl

lemma mem_upsert {hf : ∀ r, key (f r) = key r} (h : x ∈ (t.upsert r f hf).rows) :
    x = (t.find (key r)).elim r f ∨ x ∈ t.rows ∧ key x ≠ key r := by
  have hfn : (t.upsert r f hf).find (key x) = some x := find_some.mpr ⟨h, rfl⟩
  rw [find_upsert] at hfn
  split_ifs at hfn with hk
  · rw [hk] at hfn
    exact .inl (some.inj hfn).symm
  · exact .inr ⟨mem_of_find hfn, hk⟩

def insertMissing (t : Table key) (r : R) : Table key := (t.insert r).getD t

lemma insert_eq_none : t.insert r = none ↔ (t.find (key r)).isSome := by
  unfold insert
  split_ifs with h
  · simp [isSome_iff_ne_none, find_none, h]
  · simp [find_none.mpr h]

lemma insertMissing_of_find (h : t.find (key r) = some r₀) : t.insertMissing r = t := by
  rw [insertMissing, insert_eq_none.mpr (by simp [h]), getD_none]

lemma find_insertMissing (r : R) (k : K) :
    (t.insertMissing r).find k = if k = key r then some ((t.find k).getD r) else t.find k := by
  cases h : t.insert r with
  | none =>
    obtain ⟨r₀, hr₀⟩ := isSome_iff_exists.mp (insert_eq_none.mp h)
    rw [insertMissing_of_find hr₀]
    split_ifs with hk
    · rw [hk, hr₀, getD_some]
    · rfl
  | some t' =>
    rw [insertMissing, h, getD_some, find_insert h]
    split_ifs with hk
    · rw [hk, (insert_rows h).2, getD_none]
    · rfl

def put (t : Table key) (r : R) : Table key :=
  t.upsert r (fun x => if key x = key r then r else x) fun x => by split_ifs with h <;> simp [h]

lemma put_of_insert (h : t.insert r = some t') : t.put r = t' := by
  simp [put, upsert, h]

lemma mem_put (h : x ∈ (t.put r).rows) : x = r ∨ x ∈ t.rows ∧ key x ≠ key r := by
  rcases mem_upsert h with hx | hx
  · left
    rw [hx]
    cases hf : t.find (key r) with
    | none => rfl
    | some r₀ => exact if_pos (find_key hf)
  · exact .inr hx

section

variable (hf : ∀ r, key (f r) = key r) {q : R → Bool}
include hf

lemma forall_modify {P : R → Prop} :
    (∀ r ∈ (t.modify k f hf).rows, P r) ↔ ∀ r ∈ t.rows, (key r = k → P (f r)) ∧ (key r ≠ k → P r) := by
  have h := @forall_updateWhere R K key t (fun r => key r = k) f hf P
  simpa [updateWhere, modify, decide_eq_true_eq] using h

lemma modify_eq_self (h : ∀ r, t.find k = some r → f r = r) : t.modify k f hf = t := by
  have hrw : (t.modify k f hf).rows = t.rows := by
    refine (map_congr_left fun r hr => ?_).trans (map_id t.rows)
    split_ifs with hk
    · exact h r (find_some.mpr ⟨hr, hk⟩)
    · rfl
  simp only [modify, update] at hrw ⊢
  simp [hrw]

lemma countP_modify_le (hk : ∀ r ∈ t.rows, key r = k → p (f r) → q r) (hrs : ∀ r ∈ t.rows, key r ≠ k → p r → q r) :
    (t.modify k f hf).rows.countP p ≤ t.rows.countP q := by
  simp only [modify, update, countP_map]
  refine countP_mono_left fun r hr hp => ?_
  rw [Function.comp_apply] at hp
  split_ifs at hp with hkey
  · exact hk r hr hkey hp
  · exact hrs r hr hkey hp

lemma countP_modify_le_succ (hrs : ∀ r ∈ t.rows, key r ≠ k → p r → q r) :
    (t.modify k f hf).rows.countP p ≤ t.rows.countP q + 1 := by
  have ho : t.rows.countP (fun r => key r = k) ≤ 1 := by
    rw [countP_eq_length_filter]
    exact t.length_filter_key k
  have hor : t.rows.countP (fun r => q r || key r = k) ≤ t.rows.countP q + t.rows.countP fun r => key r = k := by
    induction t.rows with
    | nil => simp
    | cons r rows ih =>
      simp only [countP_cons]
      split_ifs <;> simp_all <;> omega
  refine le_trans (countP_modify_le hf (q := fun r => q r || key r = k) ?_ ?_) (hor.trans (by omega))
  · intro r _ hk _
    simp [hk]
  · intro r hr hk hp
    simp [hrs r hr hk hp]

end

end LeafWeb.Lib.Table
