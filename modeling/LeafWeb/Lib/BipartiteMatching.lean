import Mathlib.Combinatorics.Enumerative.DoubleCounting

namespace LeafWeb.Lib

variable {L R : Type} {adj m m' : L → R → Prop} {lefts : Finset L} {W : Finset R}

structure IsMatching (adj m : L → R → Prop) : Prop where
  edge : ∀ l r, m l r → adj l r
  left : ∀ l r r', m l r → m l r' → r = r'
  right : ∀ l l' r, m l r → m l' r → l = l'

structure Tight (adj m : L → R → Prop) (lefts : Finset L) (W : Finset R) : Prop where
  held : ∀ w ∈ W, ∃ l ∈ lefts, m l w ∧ ∀ r, adj l r → r ∈ W
  rest : ∀ l ∈ lefts, (∃ r, m l r) ∨ ∀ r, adj l r → r ∈ W

open Classical in
noncomputable def covered (lefts : Finset L) (m : L → R → Prop) : Finset L := lefts.filter fun l => ∃ r, m l r

lemma mem_covered {l : L} : l ∈ covered lefts m ↔ l ∈ lefts ∧ ∃ r, m l r := by
  classical
  simp [covered]

theorem Tight.card_covered_le (h : Tight adj m lefts W) (hm : IsMatching adj m)
    (hm' : IsMatching adj m') : (covered lefts m').card ≤ (covered lefts m).card := by
  classical
  let enclosed : L → Prop := fun l => ∀ r, adj l r → r ∈ W
  have hi : ((covered lefts m').filter enclosed).card ≤ W.card := by
    apply Finset.card_le_card_of_forall_subsingleton m'
    · intro l hl
      obtain ⟨hl, hin⟩ := Finset.mem_filter.mp hl
      obtain ⟨r, hr⟩ := (mem_covered.mp hl).2
      exact ⟨r, hin r (hm'.edge l r hr), hr⟩
    · intro r _ l hl l' hl'
      exact hm'.right l l' r hl.2 hl'.2
  have hon : W.card ≤ ((covered lefts m).filter enclosed).card := by
    apply Finset.card_le_card_of_forall_subsingleton fun r l => m l r
    · intro w hw
      obtain ⟨l, hl, hlw, hin⟩ := h.held w hw
      exact ⟨l, Finset.mem_filter.mpr ⟨mem_covered.mpr ⟨hl, w, hlw⟩, hin⟩, hlw⟩
    · intro l _ r hr r' hr'
      exact hm.left l r r' hr.2 hr'.2
  have ho : ((covered lefts m').filter fun l => ¬enclosed l) ⊆ (covered lefts m).filter fun l => ¬enclosed l := by
    intro l hl
    obtain ⟨hl, hout⟩ := Finset.mem_filter.mp hl
    have hlf := (mem_covered.mp hl).1
    exact Finset.mem_filter.mpr ⟨mem_covered.mpr ⟨hlf, (h.rest l hlf).resolve_right hout⟩, hout⟩
  calc (covered lefts m').card
      = ((covered lefts m').filter enclosed).card + ((covered lefts m').filter fun l => ¬enclosed l).card :=
        (Finset.card_filter_add_card_filter_not enclosed).symm
    _ ≤ ((covered lefts m).filter enclosed).card +
          ((covered lefts m).filter fun l => ¬enclosed l).card :=
        Nat.add_le_add (hi.trans hon) (Finset.card_le_card ho)
    _ = (covered lefts m).card := Finset.card_filter_add_card_filter_not enclosed

end LeafWeb.Lib
