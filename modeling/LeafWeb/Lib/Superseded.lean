import LeafWeb.Lib.SortOn

namespace LeafWeb.Lib

open List Option

variable {A K G : Type} [LinearOrder K] {key : A → K} {group : A → Option G} {l : List A} {a b : A}

def Superseded (key : A → K) (group : A → Option G) (l : List A) (a : A) : Prop :=
  (group a).isSome ∧ ∃ b ∈ l, group b = group a ∧ key a < key b

lemma le_getLast (h : l.Pairwise fun a b => key a < key b) (hb : l.getLast? = some b) (ha : a ∈ l) :
    key a ≤ key b := by
  obtain ⟨init, rfl⟩ := getLast?_eq_some_iff.mp hb
  rcases mem_append.mp ha with ha | ha
  · exact ((pairwise_append.mp h).2.2 a ha b (mem_singleton_self b)).le
  · rw [mem_singleton.mp ha]

lemma mem_take_iff {n : ℕ} (h : l.Pairwise fun a b => key a < key b) (hb : (l.take n).getLast? = some b) :
    a ∈ l.take n ↔ a ∈ l ∧ key a ≤ key b := by
  have hs := h
  rw [← take_append_drop n l, pairwise_append] at hs
  constructor
  · intro ha
    exact ⟨mem_of_mem_take ha, le_getLast hs.1 hb ha⟩
  rintro ⟨ha, hle⟩
  rw [← take_append_drop n l, mem_append] at ha
  refine ha.resolve_right fun hd => ?_
  exact absurd hle (not_le.mpr (hs.2.2 b (mem_of_getLast? hb) a hd))

lemma sortOn_strict (key : A → K) (h : (l.map key).Nodup) : (sortOn key l).Pairwise fun a b => key a < key b := by
  have hn : ((sortOn key l).map key).Nodup := ((sortOn_perm key l).map key).nodup_iff.mpr h
  rw [Nodup, pairwise_map] at hn
  exact ((pairwise_sortOn key l).and hn).imp fun hab => lt_of_le_of_ne hab.1 hab.2

variable [DecidableEq G]

lemma superseded_iff_getLast (h : l.Pairwise fun a b => key a < key b) (ha : a ∈ l) (hg : (group a).isSome) :
    Superseded key group l a ↔ ((l.filter fun x => group x = group a).getLast?).map key ≠ some (key a) := by
  have hm : a ∈ l.filter fun x => group x = group a := mem_filter.mpr ⟨ha, by simp⟩
  obtain ⟨b, hb⟩ : ∃ b, (l.filter fun x => group x = group a).getLast? = some b :=
    isSome_iff_exists.mp (getLast?_isSome.mpr (ne_nil_of_mem hm))
  have hs := h.filter fun x => decide (group x = group a)
  obtain ⟨hbl, hbg⟩ := mem_filter.mp (mem_of_getLast? hb)
  rw [hb, map_some, Ne, some.injEq]
  constructor
  · rintro ⟨-, c, hc, hcg, hlt⟩ heq
    have hle := le_getLast hs hb (mem_filter.mpr ⟨hc, decide_eq_true hcg⟩)
    exact absurd (hlt.trans_le hle) (by rw [heq]; exact lt_irrefl _)
  · intro hne
    exact ⟨hg, b, hbl, of_decide_eq_true hbg, lt_of_le_of_ne (le_getLast hs hb hm) (Ne.symm hne)⟩

lemma Superseded.exists_last (hl : l.Pairwise fun a b => key a < key b) (h : Superseded key group l a) :
    ∃ b ∈ l, group b = group a ∧ key a < key b ∧ ¬Superseded key group l b := by
  obtain ⟨-, c, hc, hcg, hlt⟩ := h
  have hm : c ∈ l.filter fun x => group x = group a := mem_filter.mpr ⟨hc, decide_eq_true hcg⟩
  obtain ⟨b, hb⟩ : ∃ b, (l.filter fun x => group x = group a).getLast? = some b :=
    isSome_iff_exists.mp (getLast?_isSome.mpr (ne_nil_of_mem hm))
  have hs := hl.filter fun x => decide (group x = group a)
  obtain ⟨hbl, hbg⟩ := mem_filter.mp (mem_of_getLast? hb)
  refine ⟨b, hbl, of_decide_eq_true hbg, hlt.trans_le (le_getLast hs hb hm), ?_⟩
  rintro ⟨-, d, hd, hdg, hbd⟩
  have hdm : d ∈ l.filter fun x => group x = group a :=
    mem_filter.mpr ⟨hd, decide_eq_true (hdg.trans (of_decide_eq_true hbg))⟩
  exact absurd hbd (not_lt.mpr (le_getLast hs hb hdm))

end LeafWeb.Lib
