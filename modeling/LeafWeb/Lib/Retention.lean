import Mathlib.Algebra.Order.Ring.Int
import Mathlib.Data.List.Nodup

namespace LeafWeb.Lib

open List

structure Retained (K V : Type) where
  key : K
  expiresAt : ℤ
  value : V

namespace Retention

variable {K V : Type} {c : List (Retained K V)} {e e' : Retained K V} {k : K} {limit : ℕ}

def purge (now : ℤ) (c : List (Retained K V)) : List (Retained K V) := c.filter fun e => now < e.expiresAt

def expired (now : ℤ) (c : List (Retained K V)) : List K := (c.filter fun e => e.expiresAt ≤ now).map Retained.key

def trim (limit : ℕ) (c : List (Retained K V)) : List (Retained K V) := c.drop (c.length - limit)

def excess (limit : ℕ) (c : List (Retained K V)) : List K := (c.take (c.length - limit)).map Retained.key

lemma mem_purge {now : ℤ} : e ∈ purge now c ↔ e ∈ c ∧ now < e.expiresAt := by
  simp [purge]

lemma purge_or_expired (now : ℤ) (he : e ∈ c) : e ∈ purge now c ∨ e.key ∈ expired now c ∧ e.expiresAt ≤ now := by
  by_cases hlt : now < e.expiresAt
  · exact .inl (mem_purge.mpr ⟨he, hlt⟩)
  · have hle : e.expiresAt ≤ now := not_lt.mp hlt
    exact .inr ⟨mem_map_of_mem (mem_filter.mpr ⟨he, decide_eq_true hle⟩), hle⟩

lemma trim_or_excess (limit : ℕ) (he : e ∈ c) : e ∈ trim limit c ∨ e.key ∈ excess limit c := by
  rw [← take_append_drop (c.length - limit) c, mem_append] at he
  exact he.symm.imp_right mem_map_of_mem

lemma mem_of_trim (he : e ∈ trim limit c) : e ∈ c := mem_of_mem_drop he

def Single (c : List (Retained K V)) : Prop := (c.map Retained.key).Nodup

lemma Single.eq (h : Single c) (he : e ∈ c) (he' : e' ∈ c) (hk : e.key = e'.key) : e = e' :=
  inj_on_of_nodup_map h he he' hk

lemma Single.purge (h : Single c) (now : ℤ) : Single (purge now c) := (filter_sublist.map _).nodup h

lemma Single.trim (h : Single c) (limit : ℕ) : Single (trim limit c) := ((drop_sublist _ _).map _).nodup h

variable [DecidableEq K]

def find (c : List (Retained K V)) (k : K) : Option (Retained K V) := c.find? fun e => e.key = k

def pop (c : List (Retained K V)) (k : K) : List (Retained K V) := c.filter fun e => e.key ≠ k

def touch (c : List (Retained K V)) (k : K) : List (Retained K V) := pop c k ++ (find c k).toList

def store (c : List (Retained K V)) (e : Retained K V) : List (Retained K V) := pop c e.key ++ [e]

lemma mem_pop : e ∈ pop c k ↔ e ∈ c ∧ e.key ≠ k := by
  simp [pop]

lemma mem_store : e' ∈ store c e ↔ e' = e ∨ e' ∈ c ∧ e'.key ≠ e.key := by
  simp [store, mem_pop, or_comm]

lemma find_some (h : find c k = some e) : e ∈ c ∧ e.key = k :=
  ⟨mem_of_find?_eq_some h, by simpa using find?_some h⟩

lemma find_none : find c k = none ↔ ∀ e ∈ c, e.key ≠ k := by
  simp [find]

lemma Single.find (h : Single c) (he : e ∈ c) : find c e.key = some e := by
  cases hf : Retention.find c e.key with
  | none => exact absurd rfl (find_none.mp hf e he)
  | some e' =>
    obtain ⟨he', hk⟩ := find_some hf
    rw [h.eq he he' hk.symm]

lemma Single.pop (h : Single c) (k : K) : Single (pop c k) := (filter_sublist.map _).nodup h

lemma Single.store (h : Single c) (e : Retained K V) : Single (store c e) := by
  unfold Single Retention.store
  rw [map_append]
  refine (h.pop e.key).append (nodup_singleton _) ?_
  intro k hk hk'
  obtain ⟨e', he', rfl⟩ := mem_map.mp hk
  exact (mem_pop.mp he').2 (mem_singleton.mp hk')

lemma mem_trim_store (c : List (Retained K V)) (e : Retained K V) (hl : 0 < limit) :
    e ∈ trim limit (store c e) := by
  have hlen : (pop c e.key ++ [e]).length - limit ≤ (pop c e.key).length := by
    simp only [length_append, length_singleton]
    omega
  rw [trim, store, drop_append_of_le_length hlen]
  exact mem_append_right _ mem_cons_self

lemma mem_touch (h : Single c) : e ∈ touch c k ↔ e ∈ c := by
  rw [touch, mem_append, mem_pop, Option.mem_toList]
  constructor
  · rintro (⟨he, -⟩ | he)
    · exact he
    · exact (find_some he).1
  intro he
  by_cases hk : e.key = k
  · exact .inr (hk ▸ h.find he)
  · exact .inl ⟨he, hk⟩

lemma Single.touch (h : Single c) (k : K) : Single (touch c k) := by
  unfold Retention.touch
  cases hf : Retention.find c k with
  | none => simpa using h.pop k
  | some e =>
    have hs := h.store e
    rwa [Retention.store, (find_some hf).2] at hs

end Retention

end LeafWeb.Lib
