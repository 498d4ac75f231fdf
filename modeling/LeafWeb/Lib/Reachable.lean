import LeafWeb.Lib.SortOn
import Mathlib.Data.Finset.Card
import Mathlib.Data.List.Sort

namespace LeafWeb.Lib

open List Relation

variable {V : Type} [DecidableEq V] (edges : List (V × V)) (found : List V)

def fresh (v : V) : List V := ((edges.filter fun e => e.1 = v ∧ e.2 ∉ found).map Prod.snd).dedup

def unfound : Finset V := (edges.map Prod.snd).toFinset \ found.toFinset

variable {edges found} {v w x : V}

lemma mem_fresh : w ∈ fresh edges found v ↔ (v, w) ∈ edges ∧ w ∉ found := by
  simp [fresh]

lemma nodup_fresh : (fresh edges found v).Nodup := nodup_dedup _

lemma card_unfound (edges : List (V × V)) (found : List V) (v : V) :
    (unfound edges (found ++ fresh edges found v)).card + (fresh edges found v).length =
      (unfound edges found).card := by
  rw [unfound, toFinset_append, ← Finset.sup_eq_union, ← sdiff_sdiff_left, ← toFinset_card_of_nodup nodup_fresh]
  apply Finset.card_sdiff_add_card_eq_card
  intro w hw
  obtain ⟨he, hn⟩ := mem_fresh.mp (mem_toFinset.mp hw)
  simpa [hn] using ⟨v, he⟩

def reach (edges : List (V × V)) (found : List V) : List V → List V
  | [] => found
  | v :: pending => reach edges (found ++ fresh edges found v) ((fresh edges found v).reverse ++ pending)
termination_by pending => (unfound edges found).card + pending.length
decreasing_by
  have h := card_unfound edges found v
  simp only [length_append, length_reverse, length_cons]
  omega

variable {pending : List V}

lemma nodup_reach (h : found.Nodup) : (reach edges found pending).Nodup := by
  fun_induction reach edges found pending with
  | case1 => exact h
  | case2 found v pending ih => exact ih (h.append nodup_fresh fun w hf hw => (mem_fresh.mp hw).2 hf)

lemma mem_reach (hp : pending ⊆ found) (hc : ∀ v ∈ found, v ∉ pending → ∀ w, (v, w) ∈ edges → w ∈ found) :
    x ∈ reach edges found pending ↔ ∃ v ∈ found, ReflTransGen (fun a b => (a, b) ∈ edges) v x := by
  fun_induction reach edges found pending with
  | case1 found =>
    constructor
    · exact fun hx => ⟨x, hx, .refl⟩
    · rintro ⟨v, hv, hx⟩
      induction hx with
      | refl => exact hv
      | @tail y x _ he ih => exact hc y ih not_mem_nil x he
  | case2 found v pending ih =>
    obtain ⟨hv, hp⟩ := cons_subset.mp hp
    rw [ih ?_ ?_]
    · constructor
      · rintro ⟨w, hw, hx⟩
        rcases mem_append.mp hw with hw | hw
        · exact ⟨w, hw, hx⟩
        · exact ⟨v, hv, hx.head (mem_fresh.mp hw).1⟩
      · exact fun ⟨w, hw, hx⟩ => ⟨w, mem_append_left _ hw, hx⟩
    · grind
    · intro a ha hn w he
      by_cases hw : w ∈ found
      · exact mem_append_left _ hw
      · grind [mem_fresh]

section

variable {U : Type} [LinearOrder U] {edges : List (U × U)} {start : List U} {x : U}

def closure (edges : List (U × U)) (start : List U) : List U := sortOn id (reach edges start.dedup start.dedup)

lemma mem_closure : x ∈ closure edges start ↔ ∃ v ∈ start, ReflTransGen (fun a b => (a, b) ∈ edges) v x := by
  rw [closure, mem_sortOn, mem_reach (Subset.refl _) fun v hv hn => absurd hv hn]
  simp

lemma pairwise_closure (edges : List (U × U)) (start : List U) : (closure edges start).Pairwise (· < ·) := by
  have hn : (closure edges start).Nodup := (sortOn_perm _ _).nodup_iff.mpr (nodup_reach (nodup_dedup _))
  exact (pairwise_sortOn _ _).imp₂ (fun _ _ => lt_of_le_of_ne) hn

end

end LeafWeb.Lib
