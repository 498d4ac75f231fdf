import Mathlib.Data.List.Perm.Subperm
import Mathlib.Tactic.Ring

namespace LeafWeb.Lib.ParentChain

open List

variable {V : Type} (parent : V → Option V)

def OnChain (a b : V) : Prop := Relation.ReflTransGen (fun x y => parent x = some y) a b

/-- Walk from a node along its parents to the first one whose parent is `target`;
`seen` stops the walk on a cycle. -/
def findChild [DecidableEq V] (target : V) : ℕ → Option V → List V → Option V
  | 0, _, _ => none
  | _ + 1, none, _ => none
  | n + 1, some a, seen =>
    if a ∈ seen then none
    else if parent a = some target then some a
    else findChild target n (parent a) (a :: seen)

variable {parent} {a b c t : V}

lemma onChain_refl (a : V) : OnChain parent a a := Relation.ReflTransGen.refl

lemma OnChain.head (h : parent a = some b) (hc : OnChain parent b c) : OnChain parent a c :=
  Relation.ReflTransGen.head h hc

lemma OnChain.tail (hc : OnChain parent a b) (h : parent b = some c) : OnChain parent a c :=
  Relation.ReflTransGen.tail hc h

lemma OnChain.cases_tail (h : OnChain parent a b) : a = b ∨ ∃ c, OnChain parent a c ∧ parent c = some b := by
  rcases Relation.ReflTransGen.cases_tail h with he | ⟨c, hc, hb⟩
  · exact .inl he.symm
  · exact .inr ⟨c, hc, hb⟩

lemma OnChain.comparable (hb : OnChain parent a b) (hc : OnChain parent a c) :
    OnChain parent b c ∨ OnChain parent c b :=
  Relation.ReflTransGen.total_of_right_unique (fun _ _ _ h₁ h₂ => Option.mem_unique h₁ h₂) hb hc

section

variable [Preorder V] (hdec : ∀ x y, parent x = some y → y < x)

include hdec

lemma OnChain.le (h : OnChain parent a b) : b ≤ a := by
  induction h with
  | refl => exact le_refl _
  | tail _ hs ih => exact ((hdec _ _ hs).le).trans ih

lemma child_unique (hb : OnChain parent a b) (hc : OnChain parent a c)
    (hbt : parent b = some t) (hct : parent c = some t) : b = c := by
  have hno : ∀ x y, OnChain parent x y → parent x = some t → parent y = some t → x = y := by
    intro x y hxy hx hy
    rcases Relation.ReflTransGen.cases_head hxy with he | ⟨z, hz, hzy⟩
    · exact he
    have hzt : z = t := Option.mem_unique hz hx
    subst hzt
    exact absurd ((hdec _ _ hy).trans_le (OnChain.le hdec hzy)) (lt_irrefl _)
  rcases hb.comparable hc with h | h
  · exact hno b c h hbt hct
  · exact (hno c b h hct hbt).symm

end

variable {nodes : List V}

section

variable [DecidableEq V] {n : ℕ} {seen : List V}

lemma findChild_sound (h : findChild parent t n (some a) seen = some c) :
    OnChain parent a c ∧ parent c = some t := by
  induction n generalizing a seen with
  | zero => cases h
  | succ n ih =>
    simp only [findChild] at h
    split_ifs at h with hs hp
    · cases h
      exact ⟨onChain_refl _, hp⟩
    cases hb : parent a with
    | none => rw [hb] at h; cases n <;> cases h
    | some b =>
      rw [hb] at h
      obtain ⟨hc, ht⟩ := ih h
      exact ⟨hc.head hb, ht⟩

lemma findChild_add {cur : Option V} (hns : ∀ x, (parent x).isSome → x ∈ nodes)
    (hsub : seen ⊆ nodes) (hnd : seen.Nodup) (hn : nodes.length + 2 ≤ n + seen.length) (k : ℕ) :
    findChild parent t (n + k) cur seen = findChild parent t n cur seen := by
  induction n generalizing cur seen with
  | zero =>
    have hle := (Nodup.subperm hnd hsub).length_le
    omega
  | succ n ih =>
    rw [show n + 1 + k = (n + k) + 1 by ring]
    cases cur with
    | none => rfl
    | some a =>
      simp only [findChild]
      split_ifs with hs hp
      · rfl
      · rfl
      cases hb : parent a with
      | none => cases n <;> cases k <;> rfl
      | some b =>
        have ha : a ∈ nodes := hns a (by simp [hb])
        exact ih (cons_subset.mpr ⟨ha, hsub⟩) (nodup_cons.mpr ⟨hs, hnd⟩) (by simp only [length_cons]; omega)

lemma findChild_complete [LinearOrder V] (hdec : ∀ x y, parent x = some y → y < x)
    (hnd : ∀ x, (parent x).isSome → x ∈ nodes) (hsn : ∀ x ∈ seen, a < x)
    (hn : (nodes.filter (· ≤ a)).length ≤ n) (hc : OnChain parent a c) (ht : parent c = some t) :
    findChild parent t n (some a) seen = some c := by
  induction n generalizing a seen with
  | zero =>
    have ha : (parent a).isSome := by
      rcases Relation.ReflTransGen.cases_head hc with rfl | ⟨b, hb, _⟩
      · simp [ht]
      · simp [hb]
    have hmem : a ∈ nodes.filter (· ≤ a) := by simp [hnd a ha]
    have hpos := length_pos_of_mem hmem
    omega
  | succ n ih =>
    have hs : a ∉ seen := fun hm => lt_irrefl _ (hsn a hm)
    simp only [findChild]
    split_ifs with hp
    · rw [child_unique hdec (onChain_refl a) hc hp ht]
    rcases Relation.ReflTransGen.cases_head hc with rfl | ⟨b, hb, hbc⟩
    · exact absurd ht hp
    rw [hb]
    have hba : b < a := hdec a b hb
    refine ih ?_ ?_ hbc
    · intro x hx
      rcases mem_cons.mp hx with rfl | hx
      · exact hba
      · exact hba.trans (hsn x hx)
    · have hlt : (nodes.filter (· ≤ b)).length < (nodes.filter (· ≤ a)).length := by
        have ha : a ∈ nodes := hnd a (by simp [hb])
        have hsub : nodes.filter (· ≤ b) = (nodes.filter (· ≤ a)).filter (· ≤ b) := by
          rw [filter_filter]
          apply filter_congr
          intro x _
          by_cases hx : x ≤ b
          · simp [hx, hx.trans hba.le]
          · simp [hx]
        rw [hsub]
        apply length_filter_lt_length_iff_exists.mpr
        exact ⟨a, by simp [ha], by simpa using hba⟩
      omega

end

end LeafWeb.Lib.ParentChain
