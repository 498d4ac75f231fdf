import LeafWeb.Lab.CanonicalText
import LeafWeb.Lab.Operators

namespace LeafWeb.Lab

open Lib Option Json UInt16

def listOrder : List ℕ → List ℕ → Ordering := List.compareLex compare

instance : Std.TransCmp listOrder := inferInstanceAs (Std.TransCmp (List.compareLex compare))

instance : Std.LawfulEqCmp listOrder := inferInstanceAs (Std.LawfulEqCmp (List.compareLex compare))

lemma lexLe_eq_isLE (l m : List ℕ) : lexLe l m = (listOrder l m).isLE := by
  rw [listOrder]
  induction l generalizing m with
  | nil => cases m <;> rfl
  | cons a l ih =>
    cases m with
    | nil => rfl
    | cons b m =>
      rw [lexLe, List.compareLex_cons_cons, ih]
      rcases lt_trichotomy a b with h | h | h
      · simp [h, compare_lt_iff_lt.mpr h]
      · simp [h]
      · simp [compare_gt_iff_gt.mpr h, h.not_gt, h.ne']

def Json.rank : Json → ℕ × ℚ × List ℕ
  | .null => (1, 0, [])
  | .bool b => (2, if b then 1 else 0, [])
  | .number x => (3, x.value, [])
  | .text s => (4, 0, s.map toNat)
  | .array _ => (5, 0, [])
  | .object _ => (6, 0, [])

def rankOrder (p q : ℕ × ℚ × List ℕ) : Ordering :=
  (compare p.1 q.1).then ((compare p.2.1 q.2.1).then (listOrder p.2.2 q.2.2))

def Json.simple (v : Json) : Prop := 2 ≤ v.kind ∧ v.kind ≤ 4

inductive Compared (x y : Json) : Option Ordering → Prop where
  | nulls (hx : x = .null) (hy : y = .null) : Compared x y (some .eq)
  | below (hx : x = .null) (hy : y ≠ .null) : Compared x y (some .lt)
  | above (hx : x ≠ .null) (hy : y = .null) : Compared x y (some .gt)
  | alike (hx : x ≠ .null) (hy : y ≠ .null) (hkind : x.kind = y.kind) (hsimple : x.simple) :
    Compared x y (some (rankOrder x.rank y.rank))
  | apart (hx : x ≠ .null) (hy : y ≠ .null) (h : x.kind ≠ y.kind ∨ ¬ x.simple) : Compared x y none

lemma compare_number (x y : Binary64) : Server.compare (.number x) (some (.number y)) =
    some (rankOrder (number x).rank (number y).rank) := by
  simp only [Server.compare, Server.same, rankOrder, rank]
  rcases lt_trichotomy x.value y.value with h | h | h
  · simp [h, h.ne, compare_lt_iff_lt.mpr h]
  · simp only [h, compare_eq_iff_eq.mpr]
    rfl
  · simp [h.not_gt, h.ne', compare_gt_iff_gt.mpr h]

lemma compare_text (s t : Text) : Server.compare (.text s) (some (.text t)) =
    some (rankOrder (text s).rank (text t).rank) := by
  have hi : s.map toNat = t.map toNat ↔ s = t :=
    (List.map_injective_iff.mpr fun _ _ => UInt16.toNat_inj.mp).eq_iff
  have hle : lexLe (utf16be t) (utf16be s) = (listOrder (t.map toNat) (s.map toNat)).isLE := by
    rw [utf16be, utf16be, flatMap_unitsOf_codePoints, flatMap_unitsOf_codePoints, lexLe_bigEndian, lexLe_eq_isLE]
  have hs : listOrder (s.map toNat) (s.map toNat) = .eq := Std.ReflCmp.compare_self
  simp only [Server.compare, Server.same, rankOrder, rank, hle]
  rcases hst : listOrder (s.map toNat) (t.map toNat) with _ | _ | _
  · have hne : s ≠ t := by
      rintro rfl
      rw [hs] at hst
      exact absurd hst (by decide)
    simp [hne, Std.OrientedCmp.gt_iff_lt.mpr hst]
  · have heq : s = t := hi.mp (Std.LawfulEqCmp.eq_of_compare hst)
    simp [heq]
  · have hne : s ≠ t := by
      rintro rfl
      rw [hs] at hst
      exact absurd hst (by decide)
    simp [hne, Std.OrientedCmp.gt_iff_lt.mp hst]

lemma compare_bool (a b : Bool) : Server.compare (.bool a) (some (.bool b)) =
    some (rankOrder (bool a).rank (bool b).rank) := by
  cases a <;> cases b <;> decide

lemma compared (x y : Json) : Compared x y (Server.compare x (some y)) := by
  cases x with
  | null =>
    cases y with
    | null => exact .nulls rfl rfl
    | _ => exact .below rfl (by simp)
  | number p =>
    cases y with
    | null => exact .above (by simp) rfl
    | number q =>
      rw [compare_number]
      exact .alike (by simp) (by simp) rfl (by simp [simple, kind])
    | _ => exact .apart (by simp) (by simp) (.inl (by simp [kind]))
  | text s =>
    cases y with
    | null => exact .above (by simp) rfl
    | text t =>
      rw [compare_text]
      exact .alike (by simp) (by simp) rfl (by simp [simple, kind])
    | _ => exact .apart (by simp) (by simp) (.inl (by simp [kind]))
  | bool a =>
    cases y with
    | null => exact .above (by simp) rfl
    | bool b =>
      rw [compare_bool]
      exact .alike (by simp) (by simp) rfl (by simp [simple, kind])
    | _ => exact .apart (by simp) (by simp) (.inl (by simp [kind]))
  | array | object =>
    cases y with
    | null => exact .above (by simp) rfl
    | _ => exact .apart (by simp) (by simp) (.inr (by simp [simple, kind]))

variable {n : ℕ}

section

variable (key : Fin n → Option Json)

def asked (i j : Fin n) : Option Ordering := do
  let left ← key i
  let right ← key j
  Server.compare left (some right)

def rankAt (i : Fin n) : ℕ × ℚ × List ℕ := ((key i).getD .null).rank

def weighed (weight : Fin n → ℕ) : Fin n → Fin n → Ordering :=
  compareLex (compareOn weight) (compareLex (compareOn fun i => (rankAt key i).1)
    (compareLex (compareOn fun i => (rankAt key i).2.1) fun i j =>
      listOrder (rankAt key i).2.2 (rankAt key j).2.2))

lemma weighed_trans (weight : Fin n → ℕ) : Std.TransCmp (weighed key weight) := by
  have hl : Std.TransCmp fun i j => listOrder (rankAt key i).2.2 (rankAt key j).2.2 :=
    { eq_swap := Std.OrientedCmp.eq_swap
      isLE_trans := Std.TransCmp.isLE_trans }
  unfold weighed
  infer_instance

lemma weighed_eq (weight : Fin n → ℕ) (i j : Fin n) : weighed key weight i j =
    (compare (weight i) (weight j)).then (rankOrder (rankAt key i) (rankAt key j)) :=
  rfl

def weight (inside : Fin n → Prop) [DecidablePred inside] (s : ℕ) (i : Fin n) : ℕ :=
  if inside i then s else if (key i).map kind = some 1 then 1 else 3

variable {key} {i j : Fin n} {x y : Json}

lemma kind_eq_one {v : Json} : v.kind = 1 ↔ v = .null := by
  cases v <;> simp [kind]

lemma explains_weighed {inside : Fin n → Prop} {s : ℕ} [DecidablePred inside]
    (hn : ∀ i, inside i → key i ≠ some .null) (hs : ∀ i, inside i → (key i).isSome → 2 ≤ s)
    (hkn : ∀ i j x y, i ≠ j → key i = some x → key j = some y → x.kind = y.kind → x.simple →
      (inside i ↔ inside j)) :
    Explains (weighed key (weight key inside s)) (asked key) := by
  refine ⟨weighed_trans key _, fun i j o hij h => ?_⟩
  simp only [asked, bind_eq_bind, bind_eq_some_iff] at h
  obtain ⟨x, hx, y, hy, ho⟩ := h
  have hw : ∀ k v, key k = some v → weight key inside s k = if inside k then s else
      if v.kind = 1 then 1 else 3 := by
    intro k v hk
    simp [weight, hk]
  have hl : ∀ k, key k = some .null → weight key inside s k = 1 := by
    intro k hk
    rw [hw k _ hk, if_neg fun hin => hn k hin hk]
    rfl
  have hh : ∀ k v, key k = some v → v ≠ .null → 1 < weight key inside s k := by
    intro k v hk hv
    rw [hw k v hk, if_neg (mt kind_eq_one.mp hv)]
    split_ifs with hin
    · have := hs k hin (by rw [hk]; rfl)
      omega
    · omega
  have hr : ∀ k v, key k = some v → rankAt key k = v.rank := by
    intro k v hk
    rw [rankAt, hk, getD_some]
  rw [weighed_eq, hr i x hx, hr j y hy]
  have hc := compared x y
  rw [ho] at hc
  generalize hopt : some o = opt at hc
  cases hc with
  | nulls hx' hy' =>
    subst hx' hy'
    obtain rfl := some.inj hopt
    rw [hl i hx, hl j hy]
    rfl
  | below hx' hy' =>
    subst hx'
    obtain rfl := some.inj hopt
    rw [hl i hx, compare_lt_iff_lt.mpr (hh j y hy hy')]
    rfl
  | above hx' hy' =>
    subst hy'
    obtain rfl := some.inj hopt
    rw [hl j hy, compare_gt_iff_gt.mpr (hh i x hx hx')]
    rfl
  | alike hx' hy' hk hsm =>
    obtain rfl := some.inj hopt
    rw [hw i x hx, hw j y hy, if_neg (mt kind_eq_one.mp hx'), if_neg (mt kind_eq_one.mp hy')]
    simp only [hkn i j x y hij hx hy hk hsm]
    rw [compare_eq_iff_eq.mpr rfl]
    rfl
  | apart => cases hopt

lemma decides_of_refused (hij : i ≠ j) (hi : key i = none) : Decides (asked key) := by
  have hsm : ∀ k, k = i → ¬ (key k).isSome := by
    simp [hi]
  have he : ∀ s, Explains (weighed key (weight key (· = i) s)) (asked key) := by
    intro s
    apply explains_weighed
    · simp [hi]
    · intro k hk hk'
      exact absurd hk' (hsm k hk)
    intro k l x y _ hk hl _ _
    constructor
    · rintro rfl
      cases hi.symm.trans hk
    · rintro rfl
      cases hi.symm.trans hl
  have hj : ∀ s, weight key (· = i) s j = 1 ∨ weight key (· = i) s j = 3 := by
    intro s
    rw [weight, if_neg hij.symm]
    split_ifs
    · exact .inl rfl
    · exact .inr rfl
  have hs : ∀ s, weight key (· = i) s i = s := fun s => if_pos rfl
  refine .inr ⟨_, _, i, j, he 0, he 4, ?_, ?_⟩
  · rw [weighed_eq, compare_lt_iff_lt.mpr]
    · rfl
    · rw [hs]
      rcases hj 0 with h | h <;> omega
  · rw [weighed_eq, compare_gt_iff_gt.mpr]
    · rfl
    · rw [hs]
      rcases hj 4 with h | h <;> omega

lemma decides_of_apart (hij : i ≠ j) (hi : key i = some x)
    (hj : key j = some y) (hx : x ≠ .null) (hy : y ≠ .null) (h : x.kind ≠ y.kind ∨ ¬ x.simple) :
    Decides (asked key) := by
  classical
  let inside : Fin n → Prop := fun k => k = i ∨ x.simple ∧ (key k).map kind = some x.kind
  have he : ∀ s, 2 ≤ s → Explains (weighed key (weight key inside s)) (asked key) := by
    intro s hs
    apply explains_weighed
    · rintro k (rfl | ⟨-, hk⟩) hn
      · rw [hi] at hn
        exact hx (some.inj hn)
      · rw [hn] at hk
        exact hx (kind_eq_one.mp (some.inj hk).symm)
    · exact fun _ _ _ => hs
    · intro k l u v _ hk hl hkn hsm
      have hm : ∀ {k l : Fin n} {u v : Json}, key k = some u → key l = some v →
          u.kind = v.kind → u.simple → inside k → inside l := by
        rintro k l u v hk hl hkn hsm (rfl | ⟨hsx, hkx⟩)
        · rw [hi] at hk
          obtain rfl := some.inj hk
          exact .inr ⟨hsm, by rw [hl, map_some, hkn]⟩
        · rw [hk, map_some] at hkx
          exact .inr ⟨hsx, by rw [hl, map_some, ← hkn, hkx]⟩
      have hsm' : v.simple := by rwa [simple, ← hkn]
      exact ⟨hm hk hl hkn hsm, hm hl hk hkn.symm hsm'⟩
  have hsl : ∀ s, weight key inside s i = s := fun s => if_pos (.inl rfl)
  have hot : ¬ inside j := by
    rintro (hji | ⟨hsm, hkn⟩)
    · exact hij hji.symm
    · rw [hj, map_some, some.injEq] at hkn
      exact h.elim (fun hne => hne hkn.symm) fun hns => hns hsm
  have ho : ∀ s, weight key inside s j = 3 := by
    intro s
    rw [weight, if_neg hot, if_neg]
    rw [hj, map_some, some.injEq, kind_eq_one]
    exact hy
  refine .inr ⟨_, _, i, j, he 2 le_rfl, he 4 (by norm_num), ?_, ?_⟩
  all_goals
    rw [weighed_eq, hsl, ho]
    rfl

lemma decides_asked (key : Fin n → Option Json) : Decides (asked key) := by
  by_cases ha : ∀ i j, i ≠ j → (asked key i j).isSome
  · have he : Explains (weighed key (weight key (fun _ => False) 2)) (asked key) := by
      apply explains_weighed
      · exact fun _ h => absurd h not_false
      · exact fun _ h => absurd h not_false
      · exact fun _ _ _ _ _ _ _ _ _ => Iff.rfl
    exact .inl ⟨_, he, ha⟩
  · push Not at ha
    obtain ⟨i, j, hij, hn⟩ := ha
    have hn := not_isSome_iff_eq_none.mp hn
    cases hi : key i with
    | none => exact decides_of_refused hij hi
    | some x =>
      cases hj : key j with
      | none => exact decides_of_refused hij.symm hj
      | some y =>
        rw [asked, hi, hj] at hn
        have hc := compared x y
        have hcmp : Server.compare x (some y) = none := hn
        rw [hcmp] at hc
        cases hc with
        | apart hx hy h => exact decides_of_apart hij hi hj hx hy h

end

end LeafWeb.Lab
