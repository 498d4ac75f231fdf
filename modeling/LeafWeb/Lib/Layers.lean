import LeafWeb.Lib.Dict

namespace LeafWeb.Lib

open List

variable {K A : Type}

def layer (queues : Dict K (List A)) (depth : ℕ) : List A := queues.rows.filterMap fun p => p.2[depth]?

def layers (arrange : List A → List A) (queues : Dict K (List A)) (limit : ℕ) : ℕ → ℕ → List A → List A
  | 0, _, result => result
  | fuel + 1, depth, result =>
    if result.length < limit then
      let batch := layer queues depth
      if batch = [] then result
      else
        layers arrange queues limit fuel (depth + 1) (result ++ (arrange batch).take (limit - result.length))
    else result

variable {owner : A → K} {queues : Dict K (List A)} {limit : ℕ} {l : List A} {arrange : List A → List A}

lemma layers_full (fuel depth : ℕ) (h : limit ≤ l.length) : layers arrange queues limit fuel depth l = l := by
  cases fuel with
  | zero => rfl
  | succ fuel => rw [layers, if_neg h.not_gt]

variable [DecidableEq K]

def Dict.line (queues : Dict K (List A)) (k : K) : List A := (queues.get k).getD []

def share (owner : A → K) (k : K) (l : List A) : List A := l.filter fun a => owner a = k

structure Layered (owner : A → K) (queue : K → List A) (limit : ℕ) (l : List A) : Prop where
  length_le : l.length ≤ limit
  cut : ∃ depth, ∀ k, share owner k l = (queue k).take depth ∨ share owner k l = (queue k).take (depth + 1)
  all : l.length < limit → ∀ k, share owner k l = queue k

namespace Layered

variable {queue : K → List A}

section

variable (h : Layered owner queue limit l) {k k' : K}
include h

lemma sublist (k : K) : (share owner k l).Sublist (queue k) := by
  obtain ⟨depth, hc⟩ := h.cut
  rcases hc k with hk | hk <;> exact hk ▸ take_sublist _ _

lemma nodup (hq : ∀ k, (queue k).Nodup) : l.Nodup := by
  rw [nodup_iff_sublist]
  intro a hs
  have ht := (hs.filter fun b => owner b = owner a).trans (h.sublist (owner a))
  exact nodup_iff_sublist.mp (hq (owner a)) a (by simpa using ht)

lemma behind (hlt : (share owner k' l).length + 1 < (share owner k l).length) : share owner k' l = queue k' := by
  obtain ⟨depth, hc⟩ := h.cut
  have hk : (share owner k l).length ≤ depth + 1 := by
    rcases hc k with hk | hk <;> rw [hk, length_take] <;> omega
  rcases hc k' with hk' | hk' <;>
    · rw [hk', length_take] at hlt
      rw [hk', take_of_length_le (by omega)]

end

end Layered

section

variable (ho : ∀ p ∈ queues.rows, ∀ a ∈ p.2, owner a = p.1)
include ho

lemma share_layer (k : K) (depth : ℕ) : share owner k (layer queues depth) = (queues.line k)[depth]?.toList := by
  have hf : share owner k (layer queues depth) =
      (queues.rows.filter fun p => p.1 = k).filterMap fun p => p.2[depth]? := by
    rw [share, layer, filter_filterMap, filterMap_filter]
    apply filterMap_congr
    intro p hp
    cases ha : p.2[depth]? with
    | none => simp
    | some a => simp [ho p hp a (mem_of_getElem? ha), Option.filter]
  have hh : (queues.rows.filter fun p => p.1 = k) = (queues.find k).toList := by
    have hl := queues.length_filter_key k
    have hfn : (queues.rows.filter fun p => p.1 = k).head? = queues.find k := head?_filter
    rw [← hfn]
    cases h : queues.rows.filter fun p => p.1 = k with
    | nil => rfl
    | cons p rest =>
      rw [h, length_cons] at hl
      rw [eq_nil_of_length_eq_zero (by omega : rest.length = 0)]
      rfl
  rw [hf, hh, Dict.line, Dict.get]
  cases queues.find k with
  | none => simp
  | some p => cases h : p.2[depth]? <;> simp [h]

lemma layered_layers (ha : ∀ l, (arrange l).Perm l) (fuel depth : ℕ) (hlen : l.length ≤ limit)
    (hf : limit ≤ fuel + l.length) (hl : ∀ k, share owner k l = (queues.line k).take depth) :
    Layered owner queues.line limit (layers arrange queues limit fuel depth l) := by
  induction fuel generalizing depth l with
  | zero =>
    rw [layers]
    exact ⟨hlen, ⟨depth, fun k => .inl (hl k)⟩, fun h => absurd h (by omega)⟩
  | succ fuel ih =>
    by_cases hlt : l.length < limit
    swap
    · rw [layers_full _ _ (not_lt.mp hlt)]
      exact ⟨hlen, ⟨depth, fun k => .inl (hl k)⟩, fun h => absurd h hlt⟩
    have hb := fun k => share_layer ho k depth
    rw [layers, if_pos hlt]
    dsimp only
    split_ifs with hnil
    · have hall : ∀ k, share owner k l = queues.line k := by
        intro k
        have hk := hb k
        rw [hnil] at hk
        have hn : (queues.line k)[depth]? = none := by
          cases h : (queues.line k)[depth]? with
          | none => rfl
          | some a => simp [share, h] at hk
        rw [hl, take_of_length_le (getElem?_eq_none_iff.mp hn)]
      exact ⟨hlen, ⟨depth, fun k => .inl (hl k)⟩, fun _ => hall⟩
    have hp := ha (layer queues depth)
    have hpos : 0 < (layer queues depth).length := length_pos_iff.mpr hnil
    have hs : ∀ k, share owner k (arrange (layer queues depth)) = (queues.line k)[depth]?.toList := by
      intro k
      have h : (share owner k (arrange (layer queues depth))).Perm _ := hp.filter _
      rw [← share, hb] at h
      generalize (queues.line k)[depth]? = a at h ⊢
      cases a with
      | none => exact perm_nil.mp h
      | some a => exact perm_singleton.mp h
    by_cases hfit : (layer queues depth).length ≤ limit - l.length
    · rw [take_of_length_le (by rwa [hp.length_eq])]
      apply ih
      · rw [length_append, hp.length_eq]
        omega
      · rw [length_append, hp.length_eq]
        omega
      · intro k
        rw [share, filter_append, ← share, ← share, hl, hs, take_add_one]
    · have hln : (l ++ (arrange (layer queues depth)).take (limit - l.length)).length = limit := by
        rw [length_append, length_take, hp.length_eq]
        omega
      rw [layers_full _ _ hln.ge]
      refine ⟨hln.le, ⟨depth, fun k => ?_⟩, fun h => absurd h (by omega)⟩
      have hsub : (share owner k ((arrange (layer queues depth)).take (limit - l.length))).Sublist _ :=
        (take_sublist _ _).filter _
      rw [← share, hs] at hsub
      rw [share, filter_append, ← share, ← share, hl, take_add_one]
      generalize (queues.line k)[depth]? = a at hsub ⊢
      cases a with
      | none => simp [sublist_nil.mp hsub]
      | some a => rcases sublist_singleton.mp hsub with h | h <;> simp [h]

end

end LeafWeb.Lib
