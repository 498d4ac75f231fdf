import LeafWeb.Lib.Dict
import Mathlib.Data.Multiset.OrderedMonoid

/-! Round-robin queues: one FIFO for each key and a ring of the keys in the order of their turns. -/

namespace LeafWeb.Lib

open List Dict

variable {κ α : Type}

structure Rotation (κ α : Type) where
  fifos : Dict κ (List α)
  ring : List κ

namespace Rotation

variable [DecidableEq κ] {k' : κ}

def empty : Rotation κ α := ⟨.empty, []⟩

def waiting (q : Rotation κ α) (k : κ) : List α := (q.fifos.get k).getD []

def openKey (q : Rotation κ α) (k : κ) : Rotation κ α :=
  match q.fifos.get k with
  | some _ => q
  | none => ⟨q.fifos.set k [], q.ring ++ [k]⟩

def enqueue (q : Rotation κ α) (k : κ) (a : α) : Rotation κ α :=
  let q' := q.openKey k
  ⟨q'.fifos.set k (q'.waiting k ++ [a]), q'.ring⟩

/-- What becomes of the entry of a key without items: `forget` takes it out of the map. -/
def retire (forget : Bool) (fifos : Dict κ (List α)) (k : κ) : Dict κ (List α) :=
  if forget then fifos.pop k else fifos

def pickLoop (forget : Bool) : ℕ → Rotation κ α → Option α × Rotation κ α
  | 0, q => (none, q)
  | fuel + 1, q =>
    match q.ring with
    | [] => (none, q)
    | k :: ring =>
      match q.fifos.get k with
      | some (a :: b :: rest) => (some a, ⟨q.fifos.set k (b :: rest), ring ++ [k]⟩)
      | some [a] => (some a, ⟨retire forget (q.fifos.set k []) k, ring⟩)
      | _ => pickLoop forget fuel ⟨retire forget q.fifos k, ring⟩

def pick (forget : Bool) (q : Rotation κ α) : Option α × Rotation κ α := pickLoop forget (q.ring.length + 1) q

def withdraw [DecidableEq α] (q : Rotation κ α) (k : κ) (a : α) : Rotation κ α :=
  match q.fifos.get k with
  | none => q
  | some fifo =>
    if fifo.erase a = [] then ⟨q.fifos.pop k, q.ring.erase k⟩
    else ⟨q.fifos.set k (fifo.erase a), q.ring⟩

def items (q : Rotation κ α) : Multiset α := q.fifos.total (fun r => (r.2 : Multiset α))

def Drained (q : Rotation κ α) (k : κ) : Prop := q.fifos.get k = some []

instance (q : Rotation κ α) (k : κ) : Decidable (q.Drained k) :=
  match h : q.fifos.get k with
  | some [] => isTrue h
  | some (_ :: _) => isFalse (by simp [Drained, h])
  | none => isFalse (by simp [Drained, h])

structure Exact (q : Rotation κ α) : Prop where
  nodup : q.ring.Nodup
  mem : ∀ k, k ∈ q.ring ↔ q.waiting k ≠ []

structure Served (q : Rotation κ α) (k : κ) (a : α) (q' : Rotation κ α) : Prop where
  front : q.waiting k = a :: q'.waiting k
  others : ∀ k', k' ≠ k → q'.waiting k' = q.waiting k'
  ring : ∃ ring, q.ring = k :: ring ∧ q'.ring = ring ++ (if q'.waiting k = [] then [] else [k])

section

variable (q : Rotation κ α) (k : κ) (a : α)

@[simp] lemma waiting_openKey (k' : κ) : (q.openKey k).waiting k' = q.waiting k' := by
  unfold openKey
  split
  · rfl
  rename_i h
  simp only [waiting, get_set]
  split_ifs with hk
  · rw [hk, h]
    rfl
  · rfl

@[simp] lemma waiting_enqueue (k' : κ) :
    (q.enqueue k a).waiting k' = if k' = k then q.waiting k ++ [a] else q.waiting k' := by
  have hs : (q.enqueue k a).waiting k' =
      if k' = k then (q.openKey k).waiting k ++ [a] else (q.openKey k).waiting k' := by
    simp only [enqueue, waiting, get_set]
    split_ifs <;> rfl
  rw [hs, waiting_openKey, waiting_openKey]

lemma ring_enqueue : (q.enqueue k a).ring = if q.fifos.get k = none then q.ring ++ [k] else q.ring := by
  simp only [enqueue, openKey]
  split
  next h =>
    rw [if_neg (by simp [h])]
  next h =>
    rw [if_pos h]

lemma drained_enqueue (h : ¬ q.Drained k') : ¬ (q.enqueue k a).Drained k' := by
  simp only [Drained, enqueue, get_set]
  split_ifs with hk
  · simp
  unfold openKey
  split
  · exact h
  · rwa [get_set, if_neg hk]

end

section

variable (q : Rotation κ α) {k : κ}

lemma get_of_waiting {q : Rotation κ α} (h : q.waiting k ≠ []) : q.fifos.get k = some (q.waiting k) := by
  unfold waiting at h ⊢
  cases hg : q.fifos.get k with
  | none => simp [hg] at h
  | some fifo => rfl

lemma waiting_of_get {q : Rotation κ α} {fifo : List α} (h : q.fifos.get k = some fifo) : q.waiting k = fifo := by
  simp [waiting, h]

lemma items_set {fifo : List α} (ring ring' : List κ) {fifos : Dict κ (List α)} (h : fifos.get k = some fifo)
    (fifo' : List α) :
    items ⟨fifos.set k fifo', ring⟩ + (fifo : Multiset α) = items ⟨fifos, ring'⟩ + (fifo' : Multiset α) :=
  total_set_some (fun r : κ × List α => (r.2 : Multiset α)) h fifo'

lemma items_retire (forget : Bool) (ring ring' : List κ) {fifos : Dict κ (List α)}
    (h : fifos.get k = some []) : items ⟨retire forget fifos k, ring⟩ = items ⟨fifos, ring'⟩ := by
  cases forget with
  | false => rfl
  | true =>
    have hp := total_pop (fun r : κ × List α => (r.2 : Multiset α)) h
    simpa [items, retire] using hp.symm

lemma items_enqueue (k : κ) (a : α) : (q.enqueue k a).items = a ::ₘ q.items := by
  have ho : (q.openKey k).items = q.items ∧ (q.openKey k).fifos.get k = some (q.waiting k) := by
    unfold openKey
    split
    next fifo h =>
      exact ⟨rfl, by rw [h, waiting, h]; rfl⟩
    rename_i h
    refine ⟨?_, by simp [get_set, waiting, h]⟩
    simpa [items] using total_set_none (fun r : κ × List α => (r.2 : Multiset α)) h []
  have hs := items_set (q.openKey k).ring (q.openKey k).ring ho.2 (q.waiting k ++ [a])
  have hk : (q.openKey k).waiting k = q.waiting k := waiting_openKey q k k
  rw [enqueue, hk]
  rw [← Multiset.coe_add, ← add_assoc, add_right_comm] at hs
  have hh := add_right_cancel hs
  rw [hh, ← Multiset.singleton_add, add_comm]
  exact congrArg _ ho.1

lemma items_eq_zero : q.items = 0 ↔ ∀ k, q.waiting k = [] := by
  rw [items, Table.total, sum_eq_zero_iff]
  constructor
  · intro h k
    by_contra hw
    have hm := get_some.mp (get_of_waiting hw)
    have h0 := h _ (mem_map_of_mem hm)
    exact hw (by simpa using h0)
  · intro h x hx
    obtain ⟨⟨k, fifo⟩, hm, rfl⟩ := mem_map.mp hx
    have hk := h k
    rw [waiting_of_get (get_some.mpr hm)] at hk
    simpa using hk

end

variable {q q' : Rotation κ α} {k : κ} {a : α}

lemma exact_empty : Exact (empty : Rotation κ α) where
  nodup := nodup_nil
  mem k := by simp [empty, waiting]

lemma Exact.enqueue_iff (h : Exact q) (a : α) : Exact (q.enqueue k a) ↔ ¬ q.Drained k := by
  constructor
  · intro he hd
    have hm : k ∈ (q.enqueue k a).ring := (he.mem k).mpr (by simp)
    rw [ring_enqueue, if_neg (by simp [Drained] at hd; simp [hd])] at hm
    exact (h.mem k).mp hm (waiting_of_get hd)
  · intro hd
    by_cases hn : q.fifos.get k = none
    · have hk : k ∉ q.ring := by
        rw [h.mem]
        simp [waiting, hn]
      constructor
      · rw [ring_enqueue, if_pos hn]
        exact h.nodup.append (nodup_singleton k) (by simpa using hk)
      intro k'
      rw [ring_enqueue, if_pos hn, waiting_enqueue]
      by_cases hkk : k' = k
      · simp [hkk]
      · simp [hkk, h.mem]
    · have hw : q.waiting k ≠ [] := by
        intro hw
        obtain ⟨fifo, hf⟩ := Option.ne_none_iff_exists'.mp hn
        rw [waiting_of_get hf] at hw
        rw [hw] at hf
        exact hd hf
      constructor
      · rw [ring_enqueue, if_neg hn]
        exact h.nodup
      intro k'
      rw [ring_enqueue, if_neg hn, waiting_enqueue, h.mem]
      by_cases hkk : k' = k
      · simp [hkk, hw]
      · simp [hkk]

lemma Served.exact (h : Exact q) (hs : Served q k a q') : Exact q' := by
  obtain ⟨ring, hq, hq'⟩ := hs.ring
  have hnd : k ∉ ring ∧ ring.Nodup := by
    have := h.nodup
    rwa [hq, nodup_cons] at this
  have hm : ∀ k', k' ≠ k → (k' ∈ ring ↔ q'.waiting k' ≠ []) := by
    intro k' hk
    rw [hs.others k' hk, ← h.mem, hq, mem_cons]
    simp [hk]
  by_cases hw : q'.waiting k = []
  · rw [if_pos hw, append_nil] at hq'
    refine ⟨by rw [hq']; exact hnd.2, fun k' => ?_⟩
    by_cases hk : k' = k
    · simp [hk, hq', hnd.1, hw]
    · rw [hq', hm k' hk]
  · rw [if_neg hw] at hq'
    constructor
    · rw [hq']
      exact hnd.2.append (nodup_singleton k) (by simpa using hnd.1)
    intro k'
    by_cases hk : k' = k
    · simp [hk, hq', hw]
    · rw [hq', mem_append, hm k' hk]
      simp [hk]

lemma waiting_set (fifos : Dict κ (List α)) (ring : List κ) (fifo : List α) (k' : κ) :
    waiting ⟨fifos.set k fifo, ring⟩ k' = if k' = k then fifo else (fifos.get k').getD [] := by
  simp only [waiting, get_set]
  split_ifs <;> rfl

lemma waiting_retire (forget : Bool) (fifos : Dict κ (List α)) (ring : List κ) (k' : κ) :
    waiting ⟨retire forget (fifos.set k []) k, ring⟩ k' = if k' = k then [] else (fifos.get k').getD [] := by
  cases forget with
  | false => exact waiting_set fifos ring [] k'
  | true =>
    simp only [waiting, retire, if_true, get_pop, get_set]
    split_ifs <;> rfl

lemma drained_retire {forget : Bool} {fifos : Dict κ (List α)} {ring : List κ}
    (h : Drained ⟨retire forget (fifos.set k []) k, ring⟩ k') :
    fifos.get k' = some [] ∨ (forget = false ∧ k' = k) := by
  by_cases hk : k' = k
  · cases forget with
    | false => exact .inr ⟨rfl, hk⟩
    | true => simp [Drained, retire, get_pop, hk] at h
  · cases forget <;> simpa [Drained, retire, get_pop, get_set, hk] using h

lemma Exact.pick (h : Exact q) (forget : Bool) :
    (q.ring = [] ∧ pick forget q = (none, q)) ∨
    ∃ k a q', Served q k a q' ∧ pick forget q = (some a, q') ∧
      (∀ k', q'.Drained k' → q.Drained k' ∨ (forget = false ∧ k' = k)) ∧
      q.items = a ::ₘ q'.items := by
  unfold Rotation.pick
  cases hr : q.ring with
  | nil => exact .inl ⟨rfl, by simp [pickLoop, hr]⟩
  | cons k ring =>
    right
    have hw : q.waiting k ≠ [] := (h.mem k).mp (by simp [hr])
    have hg := get_of_waiting hw
    obtain ⟨a, fifo, hf⟩ := exists_cons_of_ne_nil hw
    rw [hf] at hg
    cases fifo with
    | nil =>
      refine ⟨k, a, ⟨retire forget (q.fifos.set k []) k, ring⟩, ⟨?_, ?_, ?_⟩, ?_, ?_, ?_⟩
      · rw [hf, waiting_retire, if_pos rfl]
      · intro k' hk
        rw [waiting_retire, if_neg hk]
        rfl
      · exact ⟨ring, hr, by simp [waiting_retire]⟩
      · simp [pickLoop, hr, hg]
      · intro k' hd
        exact drained_retire hd
      · have hs := items_set ring q.ring hg []
        rw [items_retire forget ring ring (by simp [get_set])]
        simpa [add_comm] using hs.symm
    | cons b rest =>
      refine ⟨k, a, ⟨q.fifos.set k (b :: rest), ring ++ [k]⟩, ⟨?_, ?_, ?_⟩, ?_, ?_, ?_⟩
      · rw [hf, waiting_set, if_pos rfl]
      · intro k' hk
        rw [waiting_set, if_neg hk]
        rfl
      · exact ⟨ring, hr, by simp [waiting_set]⟩
      · simp [pickLoop, hr, hg]
      · intro k' hd
        left
        simp only [Drained, get_set] at hd
        split_ifs at hd
        · cases hd
        · exact hd
      · have hs := items_set (ring ++ [k]) q.ring hg (b :: rest)
        rw [← Multiset.cons_coe, ← Multiset.singleton_add, ← add_assoc] at hs
        have hh := add_right_cancel hs
        rw [← Multiset.singleton_add, add_comm]
        exact hh.symm

section

variable [DecidableEq α]

lemma waiting_withdraw (k' : κ) :
    (q.withdraw k a).waiting k' = if k' = k then (q.waiting k).erase a else q.waiting k' := by
  unfold withdraw
  split
  next h =>
    split_ifs with hk
    · simp [hk, waiting, h]
    · rfl
  next fifo h =>
    rw [waiting_of_get h]
    by_cases he : fifo.erase a = []
    · rw [if_pos he, he]
      simp only [waiting, get_pop]
      split_ifs <;> rfl
    · rw [if_neg he]
      simp only [waiting, get_set]
      split_ifs <;> rfl

lemma drained_withdraw (h : ¬ q.Drained k') : ¬ (q.withdraw k a).Drained k' := by
  unfold withdraw
  split
  · exact h
  rename_i fifo hg
  by_cases he : fifo.erase a = []
  · rw [if_pos he]
    simp only [Drained, get_pop]
    split_ifs
    · simp
    · exact h
  · rw [if_neg he]
    simp only [Drained, get_set]
    split_ifs
    · simpa using he
    · exact h

lemma ring_withdraw (hk : q.waiting k ≠ []) :
    (q.withdraw k a).ring = if (q.waiting k).erase a = [] then q.ring.erase k else q.ring := by
  simp only [withdraw, get_of_waiting hk]
  split_ifs <;> rfl

lemma Exact.withdraw (h : Exact q) (hk : q.waiting k ≠ []) : Exact (q.withdraw k a) := by
  by_cases he : (q.waiting k).erase a = []
  · refine ⟨by rw [ring_withdraw hk, if_pos he]; exact h.nodup.erase k, fun k' => ?_⟩
    rw [ring_withdraw hk, if_pos he, waiting_withdraw, h.nodup.mem_erase_iff, h.mem]
    by_cases hkk : k' = k
    · simp [he]
    · simp [hkk]
  · refine ⟨by rw [ring_withdraw hk, if_neg he]; exact h.nodup, fun k' => ?_⟩
    rw [ring_withdraw hk, if_neg he, waiting_withdraw, h.mem]
    by_cases hkk : k' = k
    · simp [hkk, he, hk]
    · simp [hkk]

end

end Rotation

end LeafWeb.Lib
