import LeafWeb.Lib.Dict

namespace LeafWeb.Lib

open List Dict

section

variable {T : Type} [LinearOrder T] {offer offer' : T → ℕ → Prop} {c c' bound : ℕ} {t t' : T}
  {choice : Option T} {cost : Option ℕ}

def Cheapest (offer : T → ℕ → Prop) (c : ℕ) (t : T) : Prop :=
  offer t c ∧ ∀ t' c', offer t' c' → c < c' ∨ c = c' ∧ t ≤ t'

lemma Cheapest.le (h : Cheapest offer c t) (h' : offer t' c') : c ≤ c' := by
  rcases h.2 t' c' h' with hlt | ⟨heq, -⟩
  · exact hlt.le
  · exact heq.le

lemma Cheapest.congr (hof : ∀ t c, c ≤ bound → (offer t c ↔ offer' t c))
    (hc : c ≤ bound) : Cheapest offer c t ↔ Cheapest offer' c t := by
  have hi : ∀ {o o' : T → ℕ → Prop}, (∀ t c, c ≤ bound → (o t c ↔ o' t c)) → Cheapest o c t → Cheapest o' c t := by
    intro o o' ho h
    refine ⟨(ho t c hc).mp h.1, fun t' c' h' => ?_⟩
    by_cases hc' : c' ≤ bound
    · exact h.2 t' c' ((ho t' c' hc').mpr h')
    · exact .inl (hc.trans_lt (not_le.mp hc'))
  exact ⟨hi hof, hi fun t c hc => (hof t c hc).symm⟩

def Kept (offer : T → ℕ → Prop) : Option ℕ → Option T → Prop
  | some c, some t => Cheapest offer c t
  | none, none => ∀ t c, ¬ offer t c
  | _, _ => False

lemma Kept.of_some (h : Kept offer (some c) choice) : ∃ t, choice = some t ∧ Cheapest offer c t := by
  cases choice with
  | none => exact h.elim
  | some t => exact ⟨t, rfl, h⟩

lemma Kept.of_offer (h : Kept offer cost choice) (ho : offer t c) : ∃ c', cost = some c' ∧ c' ≤ c := by
  cases cost with
  | none =>
    cases choice with
    | none => exact absurd ho (h t c)
    | some t => exact h.elim
  | some c' =>
    obtain ⟨t', -, hc⟩ := h.of_some
    exact ⟨c', rfl, hc.le ho⟩

lemma Kept.iff_cheapest (h : Kept offer cost choice) : cost = some c ∧ choice = some t ↔ Cheapest offer c t := by
  constructor
  · rintro ⟨rfl, rfl⟩
    exact h
  intro hc
  obtain ⟨c', rfl, hle⟩ := h.of_offer hc.1
  obtain ⟨t', rfl, hc'⟩ := h.of_some
  obtain rfl := hle.antisymm (hc.le hc'.1)
  rcases hc.2 t' c' hc'.1 with hlt | ⟨-, ht⟩
  · exact absurd hlt (lt_irrefl c')
  rcases hc'.2 t c' hc.1 with hlt | ⟨-, ht'⟩
  · exact absurd hlt (lt_irrefl c')
  · exact ⟨rfl, congrArg some (ht'.antisymm ht)⟩

end

section

variable {S T : Type} [DecidableEq S] [LinearOrder T]

def keepLess (rows : Dict S ℕ × Dict S T) (o : S × T × ℕ) : Dict S ℕ × Dict S T :=
  if o.2.2 < (rows.1.get o.1).getD (o.2.2 + 1) then
    (rows.1.set o.1 o.2.2, rows.2.set o.1 o.2.1)
  else rows

lemma Kept.keepLess {rows : Dict S ℕ × Dict S T} {s : S} {seen : List (S × T × ℕ)} {o : S × T × ℕ}
    (h : Kept (fun t c => (s, t, c) ∈ seen) (rows.1.get s) (rows.2.get s)) (hlr : ∀ x ∈ seen, x.2.1 ≤ o.2.1) :
    Kept (fun t c => (s, t, c) ∈ seen ++ [o]) ((keepLess rows o).1.get s) ((keepLess rows o).2.get s) := by
  obtain ⟨s', t, c⟩ := o
  by_cases hs : s = s'
  · subst hs
    simp only [Lib.keepLess, mem_append, mem_singleton, Prod.mk.injEq, true_and]
    cases hr : rows.1.get s with
    | none =>
      rw [hr] at h
      cases hp : rows.2.get s with
      | some t => exact (hp ▸ h).elim
      | none =>
        rw [hp] at h
        rw [Option.getD_none, if_pos (Nat.lt_succ_self c), get_set, get_set, if_pos rfl, if_pos rfl]
        refine ⟨.inr ⟨rfl, rfl⟩, ?_⟩
        rintro t' c' (hm | ⟨rfl, rfl⟩)
        · exact absurd hm (h t' c')
        · exact .inr ⟨rfl, le_rfl⟩
    | some c₀ =>
      rw [hr] at h
      obtain ⟨t₀, hp, hm₀, hl⟩ := h.of_some
      rw [Option.getD_some]
      split_ifs with hlt
      · rw [get_set, get_set, if_pos rfl, if_pos rfl]
        refine ⟨.inr ⟨rfl, rfl⟩, ?_⟩
        rintro t' c' (hm | ⟨rfl, rfl⟩)
        · have hle := Cheapest.le ⟨hm₀, hl⟩ hm
          exact .inl (hlt.trans_le hle)
        · exact .inr ⟨rfl, le_rfl⟩
      · rw [hr, hp]
        refine ⟨.inl hm₀, ?_⟩
        rintro t' c' (hm | ⟨rfl, rfl⟩)
        · exact hl t' c' hm
        rcases (not_lt.mp hlt).lt_or_eq with hlt | rfl
        · exact .inl hlt
        · exact .inr ⟨rfl, hlr _ hm₀⟩
  · have ho : (fun t' c' => (s, t', c') ∈ seen ++ [(s', t, c)]) = fun t' c' => (s, t', c') ∈ seen := by
      simp [hs]
    rw [ho]
    unfold Lib.keepLess
    split_ifs
    · rwa [get_set, get_set, if_neg hs, if_neg hs]
    · exact h

lemma kept_foldl {offers : List (S × T × ℕ)} (h : offers.Pairwise fun o o' => o.2.1 ≤ o'.2.1)
    (s : S) : Kept (fun t c => (s, t, c) ∈ offers)
      ((offers.foldl keepLess (.empty, .empty)).1.get s)
      ((offers.foldl keepLess (.empty, .empty)).2.get s) := by
  induction offers using reverseRecOn with
  | nil => exact fun t c hm => not_mem_nil hm
  | append_singleton seen o ih =>
    rw [pairwise_append] at h
    rw [foldl_concat]
    exact (ih h.1).keepLess fun x hx => h.2.2 x hx o (mem_singleton_self o)

end

end LeafWeb.Lib
