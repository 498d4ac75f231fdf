import LeafWeb.Lib.Dict

namespace LeafWeb.Lib

open List

variable {K A : Type} [DecidableEq K] (key : A → Option K)

def uniqueStep (d : Dict K (Option A)) (a : A) : Dict K (Option A) :=
  match key a with
  | none => d
  | some k =>
    match d.get k with
    | none => d.set k (some a)
    | some _ => d.set k none

def unique (rows : List A) : Dict K A := (rows.foldl (uniqueStep key) .empty).compact

def keyed (rows : List A) (k : K) : List A := rows.filter fun a => key a = some k

namespace Unique

def entry : Option (Option A) → List A → Option (Option A)
  | o, [] => o
  | none, [a] => some (some a)
  | _, _ => some none

lemma entry_cons (o : Option (Option A)) (a : A) (as : List A) : entry o (a :: as) = entry (entry o [a]) as := by
  rcases as with _ | ⟨b, _ | ⟨c, as⟩⟩ <;> cases o <;> rfl

lemma get_uniqueStep (d : Dict K (Option A)) (a : A) (k : K) :
    (uniqueStep key d a).get k = entry (d.get k) (keyed key [a] k) := by
  unfold uniqueStep keyed
  cases ha : key a with
  | none => simp [ha, entry]
  | some k' =>
    by_cases hk : k' = k
    · subst hk
      cases hd : d.get k' <;> simp [ha, hd, entry, Dict.get_set]
    · have hk' : ¬k = k' := fun h => hk h.symm
      cases hd : d.get k' <;> simp [ha, hd, hk, hk', entry, Dict.get_set]

lemma get_foldl (rows : List A) (k : K) :
    ∀ d : Dict K (Option A), (rows.foldl (uniqueStep key) d).get k = entry (d.get k) (keyed key rows k) := by
  induction rows with
  | nil =>
    intro d
    rfl
  | cons a rows ih =>
    intro d
    rw [foldl_cons, ih, get_uniqueStep]
    by_cases ha : key a = some k
    · simp only [keyed, filter_cons, ha]
      exact (entry_cons _ _ _).symm
    · simp only [keyed, filter_cons, ha]
      rfl

end Unique

variable {key} {a : A} {k : K} {rows : List A}

lemma get_unique : (unique key rows).get k = some a ↔ keyed key rows k = [a] := by
  rw [unique, Dict.get_compact, Unique.get_foldl, Dict.get_empty]
  rcases keyed key rows k with _ | ⟨b, _ | ⟨c, bs⟩⟩
  all_goals simp [Unique.entry]

lemma mem_of_get_unique (h : (unique key rows).get k = some a) : a ∈ rows ∧ key a = some k := by
  have hm : a ∈ keyed key rows k := by
    rw [get_unique.mp h]
    exact mem_singleton_self a
  rw [keyed, mem_filter] at hm
  exact ⟨hm.1, of_decide_eq_true hm.2⟩

end LeafWeb.Lib
