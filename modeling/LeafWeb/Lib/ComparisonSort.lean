import Mathlib.Data.List.FinRange
import Mathlib.Data.List.Pairwise
import Mathlib.Data.List.Sort

/-! Sorting through a comparison that may refuse, as a decision tree that sees its items only through the
answers. Stability and order are asked for consistent comparisons only. -/

namespace LeafWeb.Lib

open List Option Ordering

variable {n : ℕ} {i : Fin n}

inductive Sorter (n : ℕ) where
  | done (order : List (Fin n))
  | ask (i j : Fin n) (distinct : i ≠ j) (next : Ordering → Sorter n)

namespace Sorter

def run (compare : Fin n → Fin n → Option Ordering) : Sorter n → Option (List (Fin n))
  | done order => some order
  | ask i j _ next => (compare i j).bind fun o => run compare (next o)

/-- The comparison of an item with itself is known. -/
def compare (i j : Fin n) (next : Ordering → Sorter n) : Sorter n := if h : i = j then next .eq else ask i j h next

end Sorter

def Before (cmp : Fin n → Fin n → Ordering) (i j : Fin n) : Prop := cmp i j = .lt ∨ cmp i j = .eq ∧ i < j

structure StableOrder (cmp : Fin n → Fin n → Ordering) (order : List (Fin n)) : Prop where
  perm : order.Perm (finRange n)
  sorted : order.Pairwise (Before cmp)

structure StableSort where
  program : (n : ℕ) → Sorter n
  correct : ∀ (n : ℕ) (cmp : Fin n → Fin n → Ordering), Std.TransCmp cmp →
    ∃ order, (program n).run (fun i j => some (cmp i j)) = some order ∧ StableOrder cmp order

def Explains (cmp : Fin n → Fin n → Ordering) (compare : Fin n → Fin n → Option Ordering) : Prop :=
  Std.TransCmp cmp ∧ ∀ i j o, i ≠ j → compare i j = some o → cmp i j = o

def Decides (compare : Fin n → Fin n → Option Ordering) : Prop :=
  (∃ cmp, Explains cmp compare ∧ ∀ i j, i ≠ j → (compare i j).isSome) ∨
  ∃ cmp cmp' i j, Explains cmp compare ∧ Explains cmp' compare ∧ cmp i j = .lt ∧ cmp' i j = .gt

lemma Explains.swap {cmp : Fin n → Fin n → Ordering} {compare : Fin n → Fin n → Option Ordering}
    (h : Explains cmp compare) : Explains (fun i j => (cmp i j).swap) fun i j => (compare i j).map swap := by
  have ht := h.1
  have hf : (fun i j => (cmp i j).swap) = fun i j => cmp j i := by
    funext i j
    exact Std.OrientedCmp.eq_swap.symm
  constructor
  · rw [hf]
    exact { eq_swap := Std.OrientedCmp.eq_swap, isLE_trans := fun h h' => Std.TransCmp.isLE_trans h' h }
  intro i j o hij ho
  obtain ⟨o', ho', rfl⟩ := map_eq_some_iff.mp ho
  exact congrArg Ordering.swap (h.2 i j o' hij ho')

lemma Decides.swap {compare : Fin n → Fin n → Option Ordering} (h : Decides compare) :
    Decides fun i j => (compare i j).map swap := by
  rcases h with ⟨cmp, he, ha⟩ | ⟨cmp, cmp', i, j, h, h', hlt, hgt⟩
  · exact .inl ⟨_, he.swap, fun i j hij => by rw [isSome_map]; exact ha i j hij⟩
  · exact .inr ⟨_, _, i, j, h'.swap, h.swap, by rw [hgt]; rfl, by rw [hlt]; rfl⟩

section

variable {cmp cmp' : Fin n → Fin n → Ordering} {compare : Fin n → Fin n → Option Ordering} {j : Fin n}
  {order order' : List (Fin n)}

lemma before_iff : Before cmp i j ↔ compareLex cmp Ord.compare i j = .lt := by
  rw [compareLex, then_eq_lt, compare_lt_iff_lt, Before]

lemma Before.asymm [Std.TransCmp cmp] (h : Before cmp i j) : ¬ Before cmp j i := by
  rw [before_iff] at h ⊢
  rw [← Std.OrientedCmp.gt_iff_lt, h]
  decide

lemma StableOrder.unique [Std.TransCmp cmp] (h : StableOrder cmp order) (h' : StableOrder cmp order') :
    order = order' := by
  apply Perm.eq_of_pairwise ?_ h.sorted h'.sorted (h.perm.trans h'.perm.symm)
  intro i j _ _ hij hji
  exact absurd hji hij.asymm

lemma Sorter.run_of_explains (h : Explains cmp compare) {s : Sorter n} (hs : s.run compare = some order) :
    s.run (fun i j => some (cmp i j)) = some order := by
  induction s with
  | done order' => exact hs
  | ask i j hd next ih =>
    rw [run, bind_eq_some_iff] at hs
    obtain ⟨o, ho, hs⟩ := hs
    rw [run, bind_some, h.2 i j o hd ho]
    exact ih o hs

lemma Sorter.run_isSome (h : ∀ i j, i ≠ j → (compare i j).isSome) (s : Sorter n) : (s.run compare).isSome := by
  induction s with
  | done order => rfl
  | ask i j hd next ih =>
    obtain ⟨o, ho⟩ := isSome_iff_exists.mp (h i j hd)
    rw [run, ho]
    exact ih o

lemma StableSort.stable (sort : StableSort) (h : Explains cmp compare)
    (hs : (sort.program n).run compare = some order) : StableOrder cmp order := by
  obtain ⟨order', hr, hst⟩ := sort.correct n cmp h.1
  rw [Sorter.run_of_explains h hs] at hr
  rw [some.inj hr]
  exact hst

lemma StableSort.run_eq_none (sort : StableSort) (h : Explains cmp compare)
    (h' : Explains cmp' compare) (hlt : cmp i j = .lt) (hgt : cmp' i j = .gt) :
    (sort.program n).run compare = none := by
  by_contra hne
  obtain ⟨order, hr⟩ := ne_none_iff_exists'.mp hne
  have hs := sort.stable h hr
  have hs' := sort.stable h' hr
  have := h.1
  have hm : ∀ k : Fin n, k ∈ order := fun k => hs.perm.mem_iff.mpr (mem_finRange k)
  have hij : i ≠ j := by
    rintro rfl
    have hsl : cmp i i = .eq := Std.ReflCmp.compare_self
    rw [hsl] at hlt
    exact absurd hlt (by decide)
  let both : Fin n → Fin n → Prop := fun a b =>
    (Before cmp a b ∧ Before cmp' a b) ∨ (Before cmp b a ∧ Before cmp' b a)
  have : Std.Symm both := ⟨fun _ _ => Or.symm⟩
  have hp : order.Pairwise both := (hs.sorted.and hs'.sorted).imp fun hab => .inl hab
  rcases hp.forall (hm i) (hm j) hij with ⟨-, ha⟩ | ⟨hb, -⟩
  · rcases ha with ha | ha
    · rw [hgt] at ha
      exact absurd ha (by decide)
    · rw [hgt] at ha
      exact absurd ha.1 (by decide)
  · exact absurd hb (Before.asymm (.inl hlt))

lemma StableSort.run_eq (sort sort' : StableSort) (h : Decides compare) :
    (sort.program n).run compare = (sort'.program n).run compare := by
  rcases h with ⟨cmp, he, ha⟩ | ⟨cmp, cmp', i, j, h, h', hlt, hgt⟩
  · obtain ⟨order, hr⟩ := isSome_iff_exists.mp ((sort.program n).run_isSome ha)
    obtain ⟨order', hr'⟩ := isSome_iff_exists.mp ((sort'.program n).run_isSome ha)
    have := he.1
    rw [hr, hr', (sort.stable he hr).unique (sort'.stable he hr')]
  · rw [sort.run_eq_none h h' hlt hgt, sort'.run_eq_none h h' hlt hgt]

end

def StableSort.sort {A : Type} (s : StableSort) (compare : A → A → Option Ordering)
    (items : List A) : Option (List A) :=
  ((s.program items.length).run fun i j => compare (items.get i) (items.get j)).map (map items.get)

namespace Sorter

def insert (i : Fin n) : List (Fin n) → (List (Fin n) → Sorter n) → Sorter n
  | [], next => next [i]
  | j :: js, next => compare i j fun o =>
    if (o.then (Ord.compare i j)).isLE then next (i :: j :: js) else insert i js fun order => next (j :: order)

def insertAll : List (Fin n) → (List (Fin n) → Sorter n) → Sorter n
  | [], next => next []
  | i :: is, next => insertAll is fun order => insert i order next

variable (cmp : Fin n → Fin n → Ordering)

/-- Items that compare equal keep their order. -/
def AtMost (i j : Fin n) : Prop := (compareLex cmp Ord.compare i j).isLE
  deriving Decidable

lemma run_compare [Std.TransCmp cmp] (i j : Fin n) (next : Ordering → Sorter n) :
    (compare i j next).run (fun i j => some (cmp i j)) = (next (cmp i j)).run fun i j => some (cmp i j) := by
  rw [compare]
  split_ifs with h
  · have hs : cmp i i = .eq := Std.ReflCmp.compare_self
    rw [← h, hs]
  · rfl

lemma run_insert [Std.TransCmp cmp] (i : Fin n) (js : List (Fin n)) (next : List (Fin n) → Sorter n) :
    (insert i js next).run (fun i j => some (cmp i j)) =
      (next (js.orderedInsert (AtMost cmp) i)).run fun i j => some (cmp i j) := by
  induction js generalizing next with
  | nil => rfl
  | cons j js ih =>
    rw [insert, run_compare, orderedInsert_cons]
    by_cases h : AtMost cmp i j
    · rw [if_pos h]
      exact congrArg _ (if_pos h)
    · rw [if_neg h]
      exact (congrArg _ (if_neg h)).trans (ih _)

lemma run_insertAll [Std.TransCmp cmp] (is : List (Fin n)) (next : List (Fin n) → Sorter n) :
    (insertAll is next).run (fun i j => some (cmp i j)) =
      (next (is.insertionSort (AtMost cmp))).run fun i j => some (cmp i j) := by
  induction is generalizing next with
  | nil => rfl
  | cons i is ih => rw [insertAll, ih, run_insert, insertionSort_cons]

lemma stableOrder_insertionSort [Std.TransCmp cmp] :
    StableOrder cmp ((finRange n).insertionSort (AtMost cmp)) where
  perm := perm_insertionSort _ _
  sorted := by
    have : Std.Total (AtMost cmp) := ⟨fun i j => by
      have hs : compareLex cmp Ord.compare j i = _ := Std.OrientedCmp.eq_swap
      rw [AtMost, AtMost, hs]
      cases compareLex cmp Ord.compare i j <;> simp⟩
    have : IsTrans _ (AtMost cmp) := ⟨fun _ _ _ => Std.TransCmp.isLE_trans⟩
    have hn : ((finRange n).insertionSort (AtMost cmp)).Nodup :=
      (perm_insertionSort _ _).nodup_iff.mpr (nodup_finRange n)
    refine ((pairwise_insertionSort (AtMost cmp) (finRange n)).and hn).imp fun {i j} ⟨hle, hne⟩ => ?_
    rw [before_iff]
    rcases isLE_iff_eq_lt_or_eq_eq.mp hle with h | h
    · exact h
    · exact absurd (compare_eq_iff_eq.mp (then_eq_eq.mp h).2) hne

end Sorter

def insertionSort : StableSort where
  program n := .insertAll (finRange n) .done
  correct _ cmp _ := ⟨_, Sorter.run_insertAll cmp _ _, Sorter.stableOrder_insertionSort cmp⟩

end LeafWeb.Lib
