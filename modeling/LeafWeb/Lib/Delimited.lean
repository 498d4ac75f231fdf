import Mathlib.Data.List.Basic

namespace LeafWeb.Lib

open List

def joined (sep : Char) (fields : List String) : String := (String.singleton sep).intercalate fields

def split (sep : Char) (s : String) : List String := (s.toList.splitOn sep).map String.ofList

lemma toList_joined (sep : Char) (fields : List String) :
    (joined sep fields).toList = [sep].intercalate (fields.map String.toList) := by
  rw [joined, String.toList_intercalate, String.toList_singleton]

variable {fields : List String} {sep : Char}

lemma split_joined (h : ∀ f ∈ fields, sep ∉ f.toList) (hne : fields ≠ []) :
    split sep (joined sep fields) = fields := by
  have hs : ∀ l ∈ fields.map String.toList, sep ∉ l := by
    intro l hl
    obtain ⟨f, hf, rfl⟩ := mem_map.mp hl
    exact h f hf
  rw [split, toList_joined, splitOn_intercalate sep hs (by simpa using hne), map_map]
  refine (map_congr_left ?_).trans (map_id _)
  intro f _
  exact String.ofList_toList

variable {A : Type} {x y : A} {c : Char}

lemma mem_intercalate {ls : List (List A)} (h : x ∈ [y].intercalate ls) : x = y ∨ ∃ l ∈ ls, x ∈ l := by
  induction ls with
  | nil => simp at h
  | cons l ls ih =>
    cases ls with
    | nil => exact .inr ⟨l, mem_cons_self, by simpa using h⟩
    | cons l' ls =>
      rw [intercalate_cons_cons] at h
      simp only [mem_append, mem_singleton] at h
      rcases h with (h | h) | h
      · exact .inr ⟨l, mem_cons_self, h⟩
      · exact .inl h
      refine (ih h).imp_right ?_
      rintro ⟨l'', hl'', hx⟩
      exact ⟨l'', mem_cons_of_mem _ hl'', hx⟩

lemma mem_joined (h : c ∈ (joined sep fields).toList) : c = sep ∨ ∃ f ∈ fields, c ∈ f.toList := by
  rw [toList_joined] at h
  refine (mem_intercalate h).imp_right ?_
  rintro ⟨l, hl, hc⟩
  obtain ⟨f, hf, rfl⟩ := mem_map.mp hl
  exact ⟨f, hf, hc⟩

lemma mapM_map_eq_some {show' : A → String} {read : String → Option A} {as : List A}
    (h : ∀ a ∈ as, read (show' a) = some a) : (as.map show').mapM read = some as := by
  induction as with
  | nil => rfl
  | cons a as ih =>
    obtain ⟨ha, has⟩ := forall_mem_cons.mp h
    simp [ha, ih has]

end LeafWeb.Lib
