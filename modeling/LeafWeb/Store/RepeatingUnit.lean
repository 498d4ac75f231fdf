import LeafWeb.Lib.Borders

/-! The shortest unit that a signing secret repeats, and the comparisons spent on finding it. -/

namespace LeafWeb.Store

open List Lib Nat

variable {α : Type} [DecidableEq α] (value : List α)

structure Scan where
  prefixes : List ℕ
  (matched comparisons : ℕ)

def Scan.entry (s : Scan) (i : ℕ) : ℕ := s.prefixes[i]?.getD 0

/-- The inner loop; `fuel` is at least `matched`, which falls in each round. -/
def fallBack (index : ℕ) : ℕ → Scan → Scan
  | 0, s => s
  | fuel + 1, s =>
    if s.matched = 0 then s
    else if value[index]? = value[s.matched]? then { s with comparisons := s.comparisons + 1 }
    else fallBack index fuel ⟨s.prefixes, s.entry (s.matched - 1), s.comparisons + 1⟩

def advance (s : Scan) (index : ℕ) : Scan :=
  let s := fallBack value index value.length s
  if value[index]? = value[s.matched]? then
    ⟨s.prefixes.set index (s.matched + 1), s.matched + 1, s.comparisons + 1⟩
  else { s with comparisons := s.comparisons + 1 }

def scan : Scan := (range' 1 (value.length - 1)).foldl (advance value) ⟨replicate value.length 0, 0, 0⟩

/-- The unit, and the comparisons of characters. -/
def smallest_repeating_unit : List α × ℕ :=
  if value.length < 2 then (value, 0)
  else
    let s := scan value
    let size := value.length - s.entry (value.length - 1)
    if size < value.length ∧ value.length % size = 0 then (value.take size, s.comparisons)
    else (value, s.comparisons)

variable {value}

variable {s : Scan} {i : ℕ}

lemma fallBack_ok (fuel : ℕ) (ht : ∀ j < i, Longest value (j + 1) (s.entry j)) (hf : s.matched ≤ fuel)
    (hs : Candidate value i s.matched) : let t := fallBack value i fuel s
    t.prefixes = s.prefixes ∧ Candidate value i t.matched ∧ (value[i]? ≠ value[t.matched]? → t.matched = 0) ∧
      t.comparisons + t.matched ≤ s.comparisons + s.matched + 1 := by
  fun_induction fallBack value i fuel s with
  | case1 s => exact ⟨rfl, hs, fun _ => by omega, by omega⟩
  | case2 fuel s h₀ => exact ⟨rfl, hs, fun _ => h₀, by omega⟩
  | case3 fuel s h₀ he => exact ⟨rfl, hs, fun hn => absurd he hn, by simp only; omega⟩
  | case4 fuel s h₀ hn ih =>
    have hlt := hs.1.1
    have hl := ht (s.matched - 1) (by omega)
    rw [Nat.sub_add_cancel (by omega)] at hl
    have hfall := hl.1.1
    obtain ⟨hp, hc, hexit, hcost⟩ := ih ht (by simp only; omega) (hs.next hn hl)
    exact ⟨hp, hc, hexit, by simp only at hcost; omega⟩

structure Scanned (value : List α) (i : ℕ) (s : Scan) : Prop where
  length : s.prefixes.length = value.length
  entries : ∀ j < i, Longest value (j + 1) (s.entry j)
  unset : ∀ j, i ≤ j → s.entry j = 0
  matched : Longest value i s.matched
  cost : s.comparisons + s.matched + 3 ≤ 3 * i

lemma Scan.entry_set (hi : i < s.prefixes.length) (a j : ℕ) (b c : ℕ) :
    Scan.entry ⟨s.prefixes.set i a, b, c⟩ j = if i = j then a else s.entry j := by
  simp only [Scan.entry, getElem?_set, hi, if_true]
  split <;> rfl

lemma scanned_advance (h : Scanned value i s) (hi : i < value.length) :
    Scanned value (i + 1) (advance value s i) := by
  have hm := h.matched.1.1
  obtain ⟨hp, hc, hexit, hcost⟩ := fallBack_ok value.length h.entries (by omega) h.matched.candidate
  have hcs := h.cost
  have hent j : (fallBack value i value.length s).entry j = s.entry j := congrArg (·[j]?.getD 0) hp
  rw [← h.length, ← hp] at hi
  unfold advance
  dsimp only
  split
  next he =>
    have hl := hc.longest he
    refine ⟨by simp [hp, h.length], fun j hj => ?_, fun j hj => ?_, hl, by simp only; omega⟩
    · rw [Scan.entry_set hi, hent]
      split
      next hij => exact hij ▸ hl
      next hij => exact h.entries j (by omega)
    · rw [Scan.entry_set hi, hent, if_neg (by omega), h.unset j (by omega)]
  next hn =>
    have h₀ := hexit hn
    rw [h₀] at hc hn
    have hl := hc.longest_zero hn
    refine ⟨hp ▸ h.length, fun j hj => ?_, fun j hj => (hent j).trans (h.unset j (by omega)),
      ?_, by simp only; omega⟩
    · refine (hent j).symm ▸ ?_
      rcases Nat.lt_succ_iff_lt_or_eq.mp hj with hj | rfl
      · exact h.entries j hj
      · exact (h.unset j le_rfl).symm ▸ hl
    · exact h₀.symm ▸ hl

lemma scanned_foldl (n : ℕ) (h : Scanned value i s) (hn : i + n ≤ value.length) :
    Scanned value (i + n) ((range' i n).foldl (advance value) s) := by
  induction n generalizing i s with
  | zero => exact h
  | succ n ih =>
    rw [range'_succ, foldl_cons, add_comm n 1, ← add_assoc]
    exact ih (scanned_advance h (by omega)) (by omega)

lemma scanned_scan (h : 0 < value.length) : Scanned value value.length (scan value) := by
  have h₁ : Longest value 1 0 := ⟨⟨Nat.one_pos, border_zero value 1⟩, fun m hm _ => Nat.le_of_lt_succ hm⟩
  have hz j : Scan.entry ⟨replicate value.length 0, 0, 0⟩ j = 0 := by
    simp only [Scan.entry, getElem?_replicate]
    split <;> rfl
  have h₀ : Scanned value 1 ⟨replicate value.length 0, 0, 0⟩ :=
    ⟨length_replicate, fun j hj => by rw [hz, Nat.lt_one_iff.mp hj]; exact h₁, fun j _ => hz j, h₁, le_rfl⟩
  have := scanned_foldl (value.length - 1) h₀ (by omega)
  rwa [Nat.add_sub_cancel' h] at this

theorem smallest_repeating_unit_shortest (value : List α) :
    let result := smallest_repeating_unit value
    (∃ k, 1 ≤ k ∧ value = (replicate k result.1).flatten) ∧
      (∀ u k, 1 ≤ k → value = (replicate k u).flatten → result.1.length ≤ u.length) ∧
        result.2 ≤ 3 * value.length := by
  have hself : ∃ k, 1 ≤ k ∧ value = (replicate k value).flatten := ⟨1, le_rfl, by simp⟩
  unfold smallest_repeating_unit
  split
  next h =>
    refine ⟨hself, fun u k hk hu => ?_, zero_le _⟩
    have hlen : value.length = k * u.length := hu ▸ length_power u k
    rcases u.length.eq_zero_or_pos with h₀ | h₀
    · exact (hlen.trans (by rw [h₀, Nat.mul_zero])).le.trans (Nat.zero_le _)
    · exact (le_of_lt_succ h).trans h₀
  next h =>
    have h₀ : 0 < value.length := by omega
    have hs := scanned_scan h₀
    have hl := hs.entries (value.length - 1) (by omega)
    rw [Nat.sub_add_cancel h₀] at hl
    have hcost := hs.cost
    dsimp only
    split
    next hd =>
      obtain ⟨k, hk⟩ := dvd_of_mod_eq_zero hd.2
      refine ⟨⟨k, ?_, power_of_hasPeriod hl.period.1 hd.1.le hk⟩, fun u k _ hu => ?_, by omega⟩
      · exact Nat.pos_of_mul_pos_left (hk ▸ h₀)
      · exact (length_take_of_le hd.1.le).trans_le (hl.root hu h₀).1
    next hd =>
      refine ⟨hself, fun u k _ hu => ?_, by omega⟩
      obtain ⟨hle, hv | hv⟩ := hl.root hu h₀
      · exact (Nat.le_of_not_lt fun hlt => hd ⟨hlt, Nat.mod_eq_zero_of_dvd hv⟩).trans hle
      · exact hv

end LeafWeb.Store
