import LeafWeb.Lib.FirstLeast
import Mathlib.Algebra.Order.Ring.Nat

/-! `_solve_zone` of `solar_autofill.py`: panels are dealt out anew at the least disruption. The dynamic
program runs in a band around the present counts, doubled until the optimum fits. -/

namespace LeafWeb.Autofill

open Lib List Nat

structure Group where
  id : String
  count : ℕ

def splits (n total_panels min_string_len : ℤ) : List ℤ → Bool
  | [] => false
  | k :: ks =>
    if k * min_string_len ≤ total_panels ∧ total_panels ≤ k * n then true
    else if k * min_string_len > total_panels then false
    else splits n total_panels min_string_len ks

def is_feasible_count (n total_panels : ℤ) : Bool :=
  if n ≤ 0 ∨ total_panels ≤ 0 then false
  else
    let min_string_len := max (n - 2) 1
    let max_k := total_panels / min_string_len + 1
    splits n total_panels min_string_len ((range max_k.toNat).map fun (i : ℕ) => (i : ℤ) + 1)

def nearest (n current_count : ℤ) : List ℤ → ℤ
  | [] => current_count
  | delta :: deltas =>
    if current_count - delta > 0 ∧ is_feasible_count n (current_count - delta) = true then
      current_count - delta
    else if is_feasible_count n (current_count + delta) then current_count + delta
    else nearest n current_count deltas

def find_nearest_feasible (n current_count : ℤ) : ℤ :=
  if n ≤ 0 ∨ is_feasible_count n current_count = true then current_count
  else nearest n current_count ((range n.toNat).map fun (i : ℕ) => (i : ℤ) + 1)

def distance (t current : ℕ) : ℕ := (t - current) + (current - t)

def feasibleFrom (n : ℤ) (low high : ℕ) : List ℕ :=
  (range' low (high + 1 - low)).filter fun (t : ℕ) => is_feasible_count n t

def bandTargets (n : ℤ) (total bound current : ℕ) : List ℕ :=
  (if current ≤ bound then [0] else []) ++ feasibleFrom n (max 1 (current - bound)) (min total (current + bound))

def layer (targets : List ℕ) (low high current : ℕ) (cost_row : Dict ℕ ℕ) : Dict ℕ ℕ × Dict ℕ ℕ :=
  (targets.flatMap fun t =>
    (cost_row.rows.map fun p => (p.1 + t, t, p.2 + distance t current)).filter fun o =>
      low ≤ o.1 ∧ o.1 ≤ high).foldl keepLess (.empty, .empty)

def bandLayer (n : ℤ) (total bound sum current : ℕ) (cost_row : Dict ℕ ℕ) : Dict ℕ ℕ × Dict ℕ ℕ :=
  layer (bandTargets n total bound current) (sum + current - bound)
    (min total (sum + current + bound)) current cost_row

def bandedRows (n : ℤ) (total bound : ℕ) :
    List ℕ → ℕ → Dict ℕ ℕ → Option (Dict ℕ ℕ × List (Dict ℕ ℕ))
  | [], _, cost_row => some (cost_row, [])
  | current :: counts, sum, cost_row =>
    let rows := bandLayer n total bound sum current cost_row
    if rows.1.rows = [] then none
    else (bandedRows n total bound counts (sum + current) rows.1).map fun (final, choices) =>
      (final, rows.2 :: choices)

def backtrack : List (Dict ℕ ℕ) → ℕ → Option (ℕ × List ℕ)
  | [], remaining => some (remaining, [])
  | pick :: choices, remaining => do
    let (remaining, targets) ← backtrack choices remaining
    let chosen ← pick.get remaining
    return (remaining - chosen, chosen :: targets)

def start : Dict ℕ ℕ := Dict.set .empty 0 0

abbrev AutofillError := String

def _banded_dp (counts : List ℕ) (total : ℕ) (n : ℤ) (bound : ℕ) : Except AutofillError (Option (List ℕ × ℕ)) :=
  match bandedRows n total bound counts 0 start with
  | none => .ok none
  | some (cost_row, choices) =>
    match cost_row.get total with
    | none => .ok none
    | some final =>
      if final > bound then .ok none
      else match backtrack choices total with
      | none => .error "auto-fill DP lost its backtrack state"
      | some (_, targets) => .ok (some (targets, final))

/-- The loop of `_solve_zone`; the bound grows in every round, so `total + 1` rounds are enough. -/
def widen (counts : List ℕ) (total : ℕ) (n : ℤ) :
    ℕ → ℕ → Except AutofillError (Option (List ℕ × ℕ))
  | 0, _ => .ok none
  | rounds + 1, bound => do
    match ← _banded_dp counts total n bound with
    | some solved => return some solved
    | none =>
      if bound ≥ total then return none
      else widen counts total n rounds (if bound = 0 then 1 else min (bound * 2) total)

structure Zone where
  feasible : Bool
  targets : List (String × ℤ)
  disruption : ℕ
  diagnostics : List String

def _solve_zone (groups : List Group) (total : ℕ) (n : ℤ) : Except AutofillError Zone :=
  let count := groups.length
  if count = 0 ∨ total = 0 then .ok ⟨true, groups.map fun g => (g.id, 0), 0, []⟩
  else do
    match ← widen (groups.map Group.count) total n (total + 1) 0 with
    | some (targets, cost) =>
      return ⟨true, (groups.map Group.id).zip (targets.map fun (t : ℕ) => (t : ℤ)), cost, []⟩
    | none =>
      return ⟨false, groups.map fun g => (g.id, find_nearest_feasible n g.count), 0,
        [s!"Zone total {total} cannot be partitioned into feasible counts for n={n} across " ++
          s!"{count} groups. Assigning nearest feasible per group (non-conserving)."]⟩

structure Partition (n : ℤ) (counts targets : List ℕ) : Prop where
  length : targets.length = counts.length
  each : ∀ t ∈ targets, t = 0 ∨ is_feasible_count n t = true
  sum : targets.sum = counts.sum

def disruption (counts targets : List ℕ) : ℕ := (zipWith distance targets counts).sum

def allLayer (n : ℤ) (total current : ℕ) (cost_row : Dict ℕ ℕ) : Dict ℕ ℕ × Dict ℕ ℕ :=
  layer (0 :: feasibleFrom n 1 total) 0 total current cost_row

def allRows (n : ℤ) (total : ℕ) : List ℕ → Dict ℕ ℕ → Dict ℕ ℕ × List (Dict ℕ ℕ)
  | [], cost_row => (cost_row, [])
  | current :: counts, cost_row =>
    let rows := allLayer n total current cost_row
    let rest := allRows n total counts rows.1
    (rest.1, rows.2 :: rest.2)

def unrestricted (n : ℤ) (counts : List ℕ) (total : ℕ) : Option (List ℕ × ℕ) := do
  let (cost_row, choices) := allRows n total counts start
  let final ← cost_row.get total
  let (_, targets) ← backtrack choices total
  return (targets, final)

structure Exact (n : ℤ) (groups : List Group) (zone : Zone) : Prop where
  feasible : zone.feasible = true ↔ ∃ targets, Partition n (groups.map Group.count) targets
  least : zone.feasible = true → IsLeast
    {d | ∃ targets, Partition n (groups.map Group.count) targets ∧
      disruption (groups.map Group.count) targets = d} zone.disruption
  targets : zone.feasible = true → ∃ targets,
    unrestricted n (groups.map Group.count) (groups.map Group.count).sum = some (targets, zone.disruption) ∧
    zone.targets = (groups.map Group.id).zip (targets.map fun (t : ℕ) => (t : ℤ))

variable {n : ℤ} {t total bound current high low : ℕ}

lemma pos_of_feasible (h : is_feasible_count n t = true) : 0 < t := by
  by_contra hn
  rw [is_feasible_count, if_pos (.inr (by omega))] at h
  cases h

lemma mem_feasibleFrom : t ∈ feasibleFrom n low high ↔ low ≤ t ∧ t ≤ high ∧ is_feasible_count n t = true := by
  have hr : low ≤ t ∧ t < low + (high + 1 - low) ↔ low ≤ t ∧ t ≤ high := by omega
  rw [feasibleFrom, mem_filter, mem_range'_1, hr, and_assoc]

lemma mem_allTargets : t ∈ 0 :: feasibleFrom n 1 total ↔ t = 0 ∨ t ≤ total ∧ is_feasible_count n t = true := by
  rw [mem_cons, mem_feasibleFrom]
  exact or_congr_right (and_iff_right_of_imp fun h => pos_of_feasible h.2)

lemma mem_bandTargets : t ∈ bandTargets n total bound current ↔
    t ∈ 0 :: feasibleFrom n 1 total ∧ distance t current ≤ bound := by
  rw [bandTargets, mem_append, mem_feasibleFrom, mem_allTargets, distance]
  cases hf : is_feasible_count n t with
  | true =>
    simp only [and_true, mem_ite_nil_right, mem_singleton]
    omega
  | false =>
    simp only [Bool.false_eq_true, and_false, or_false, mem_ite_nil_right, mem_singleton]
    omega

lemma feasibleFrom_sorted (low high : ℕ) : (feasibleFrom n low high).Pairwise (· ≤ ·) :=
  pairwise_le_range'.filter _

lemma allTargets_sorted (total : ℕ) : (0 :: feasibleFrom n 1 total).Pairwise (· ≤ ·) :=
  pairwise_cons.mpr ⟨fun _ _ => zero_le _, feasibleFrom_sorted 1 total⟩

lemma bandTargets_sorted (total bound current : ℕ) : (bandTargets n total bound current).Pairwise (· ≤ ·) := by
  refine pairwise_append.mpr ⟨?_, feasibleFrom_sorted _ _, fun a ha b _ => ?_⟩
  · split_ifs <;> simp
  · obtain ⟨-, rfl⟩ : current ≤ bound ∧ a = 0 := by simpa using ha
    exact zero_le b

variable {targets : List ℕ} {sum s c : ℕ} {row row' final : Dict ℕ ℕ}

def Offer (targets : List ℕ) (low high current : ℕ) (row : Dict ℕ ℕ) (s t c : ℕ) : Prop :=
  t ∈ targets ∧ low ≤ s ∧ s ≤ high ∧ ∃ s₀ c₀, row.get s₀ = some c₀ ∧ s = s₀ + t ∧ c = c₀ + distance t current

lemma layer_kept (hsr : targets.Pairwise (· ≤ ·)) (low high current : ℕ)
    (row : Dict ℕ ℕ) (s : ℕ) : Kept (Offer targets low high current row s)
      ((layer targets low high current row).1.get s)
      ((layer targets low high current row).2.get s) := by
  unfold layer
  generalize hof : (targets.flatMap fun t =>
    (row.rows.map fun p => (p.1 + t, t, p.2 + distance t current)).filter fun o =>
      low ≤ o.1 ∧ o.1 ≤ high) = offers
  have hm : ∀ t c, (s, t, c) ∈ offers ↔ Offer targets low high current row s t c := by
    intro t c
    simp only [← hof, mem_flatMap, mem_filter, mem_map, Prod.mk.injEq, Offer,
      Prod.exists, Dict.get_some, decide_eq_true_eq]
    constructor
    · rintro ⟨t, ht, ⟨s₀, c₀, hr, rfl, rfl, rfl⟩, hs⟩
      exact ⟨ht, hs.1, hs.2, s₀, c₀, hr, rfl, rfl⟩
    · rintro ⟨ht, hl, hh, s₀, c₀, hr, rfl, rfl⟩
      exact ⟨t, ht, ⟨s₀, c₀, hr, rfl, rfl, rfl⟩, hl, hh⟩
  have hp : offers.Pairwise fun o o' => o.2.1 ≤ o'.2.1 := by
    have htr : ∀ t, ∀ o ∈ (row.rows.map fun p => (p.1 + t, t, p.2 + distance t current)).filter
        fun o => low ≤ o.1 ∧ o.1 ≤ high, o.2.1 = t := by
      intro t o ho
      obtain ⟨p, -, rfl⟩ := mem_map.mp (mem_of_mem_filter ho)
      rfl
    rw [← hof, pairwise_flatMap]
    refine ⟨fun t _ => pairwise_of_forall_mem_list fun o ho o' ho' => ?_, ?_⟩
    · rw [htr t o ho, htr t o' ho']
    · refine hsr.imp fun {t t'} hle o ho o' ho' => ?_
      rwa [htr t o ho, htr t' o' ho']
  have hk := kept_foldl hp s
  rwa [funext fun t => funext fun c => propext (hm t c)] at hk

def Agree (bound : ℕ) (row row' : Dict ℕ ℕ) : Prop := ∀ s c, c ≤ bound → (row.get s = some c ↔ row'.get s = some c)

def Near (sum : ℕ) (row : Dict ℕ ℕ) : Prop := ∀ s c, row.get s = some c → distance s sum ≤ c

lemma allLayer_kept (n : ℤ) (total current : ℕ) (row : Dict ℕ ℕ) (s : ℕ) :
    Kept (Offer (0 :: feasibleFrom n 1 total) 0 total current row s)
      ((allLayer n total current row).1.get s) ((allLayer n total current row).2.get s) :=
  layer_kept (allTargets_sorted total) 0 total current row s

lemma bandLayer_kept (n : ℤ) (total bound sum current : ℕ) (row : Dict ℕ ℕ) (s : ℕ) :
    Kept (Offer (bandTargets n total bound current) (sum + current - bound)
        (min total (sum + current + bound)) current row s)
      ((bandLayer n total bound sum current row).1.get s)
      ((bandLayer n total bound sum current row).2.get s) :=
  layer_kept (bandTargets_sorted total bound current) _ _ current row s

lemma of_allLayer (h : (allLayer n total current row).1.get s = some c) :
    ∃ t s₀ c₀, (allLayer n total current row).2.get s = some t ∧ (t = 0 ∨ is_feasible_count n t = true) ∧
      row.get s₀ = some c₀ ∧ s = s₀ + t ∧ c = c₀ + distance t current := by
  have hk := allLayer_kept n total current row s
  rw [h] at hk
  obtain ⟨t, hp, ⟨ht, -, -, s₀, c₀, hr, hs, hc⟩, -⟩ := hk.of_some
  exact ⟨t, s₀, c₀, hp, (mem_allTargets.mp ht).imp_right And.right, hr, hs, hc⟩

lemma Near.allLayer (h : Near sum row) : Near (sum + current) (allLayer n total current row).1 := by
  intro s c hs
  obtain ⟨t, s₀, c₀, -, -, hr, rfl, rfl⟩ := of_allLayer hs
  have hn := h s₀ c₀ hr
  unfold distance at hn ⊢
  omega

lemma layer_agree (ha : Agree bound row row') (hn : Near sum row') (hc : c ≤ bound) :
    (bandLayer n total bound sum current row).1.get s = some c ∧
        (bandLayer n total bound sum current row).2.get s = some t ↔
      (allLayer n total current row').1.get s = some c ∧ (allLayer n total current row').2.get s = some t := by
  rw [(bandLayer_kept n total bound sum current row s).iff_cheapest,
    (allLayer_kept n total current row' s).iff_cheapest]
  refine Cheapest.congr (fun t c hc => ?_) hc
  constructor
  · rintro ⟨ht, -, hh, s₀, c₀, hr, hs, rfl⟩
    exact ⟨(mem_bandTargets.mp ht).1, zero_le s, hh.trans (min_le_left _ _), s₀, c₀,
      (ha s₀ c₀ (by omega)).mp hr, hs, rfl⟩
  rintro ⟨ht, -, hh, s₀, c₀, hr, rfl, rfl⟩
  have hd := hn s₀ c₀ hr
  have hb : distance (s₀ + t) (sum + current) ≤ bound := by
    unfold distance at hd hc ⊢
    omega
  unfold distance at hb
  exact ⟨mem_bandTargets.mpr ⟨ht, by omega⟩, by omega, by omega, s₀, c₀, (ha s₀ c₀ (by omega)).mpr hr, rfl, rfl⟩

lemma Agree.layer (ha : Agree bound row row') (hn : Near sum row') :
    Agree bound (bandLayer n total bound sum current row).1 (allLayer n total current row').1 := by
  intro s c hc
  constructor
  · intro h
    have hk := bandLayer_kept n total bound sum current row s
    rw [h] at hk
    obtain ⟨t, hp, -⟩ := hk.of_some
    exact ((layer_agree ha hn hc).mp ⟨h, hp⟩).1
  · intro h
    obtain ⟨t, -, -, hp, -⟩ := of_allLayer h
    exact ((layer_agree ha hn hc).mpr ⟨h, hp⟩).1

variable {counts : List ℕ} {s₀ c₀ rounds : ℕ}

structure Leads (n : ℤ) (counts targets : List ℕ) (s₀ c₀ s c : ℕ) : Prop where
  length : targets.length = counts.length
  each : ∀ t ∈ targets, t = 0 ∨ is_feasible_count n t = true
  sum : s = s₀ + targets.sum
  cost : c = c₀ + disruption counts targets

lemma Leads.nil (n : ℤ) (s c : ℕ) : Leads n [] [] s c s c := ⟨rfl, by simp, rfl, rfl⟩

lemma Leads.cons (h : Leads n counts targets (s₀ + t) (c₀ + distance t current) s c)
    (ht : t = 0 ∨ is_feasible_count n t = true) : Leads n (current :: counts) (t :: targets) s₀ c₀ s c where
  length := congrArg (· + 1) h.length
  each := forall_mem_cons.mpr ⟨ht, h.each⟩
  sum := by rw [h.sum, sum_cons, add_assoc]
  cost := by rw [h.cost, disruption, disruption, zipWith_cons_cons, sum_cons, add_assoc]

lemma backtrack_agree (counts : List ℕ) (ha : Agree bound row row') (hn : Near sum row')
    (h : (allRows n total counts row').1.get s = some c) (hc : c ≤ bound) :
    ∃ final choices targets s₀ c₀, bandedRows n total bound counts sum row = some (final, choices) ∧
      final.get s = some c ∧ backtrack choices s = some (s₀, targets) ∧
      backtrack (allRows n total counts row').2 s = some (s₀, targets) ∧
      row'.get s₀ = some c₀ ∧ Leads n counts targets s₀ c₀ s c := by
  induction counts generalizing sum row row' with
  | nil => exact ⟨row, [], [], s, c, rfl, (ha s c hc).mpr h, rfl, rfl, h, .nil n s c⟩
  | cons hcr counts ih =>
    obtain ⟨final, choices, targets, s₁, c₁, hr, hf, hb, hb', hrow, hl⟩ := ih (ha.layer hn) hn.allLayer h
    have hc₁ : c₁ ≤ bound := by
      have := hl.cost
      omega
    obtain ⟨t, s₀, c₀, hp, ht, hrow₀, rfl, rfl⟩ := of_allLayer hrow
    obtain ⟨hbn, hp'⟩ := (layer_agree ha hn hc₁).mpr ⟨hrow, hp⟩
    have hs : (bandLayer n total bound sum hcr row).1.rows ≠ [] := fun hnil => by
      rw [Dict.rows_eq_nil.mp hnil] at hbn
      cases hbn
    refine ⟨final, (bandLayer n total bound sum hcr row).2 :: choices, t :: targets, s₀, c₀, ?_,
      hf, ?_, ?_, hrow₀, hl.cons ht⟩
    · simp [bandedRows, if_neg hs, hr]
    · simp [backtrack, hb, hp']
    · simp [allRows, backtrack, hb', hp]

lemma bandedRows_agree {choices : List (Dict ℕ ℕ)} (ha : Agree bound row row') (hn : Near sum row')
    (h : bandedRows n total bound counts sum row = some (final, choices)) :
    Agree bound final (allRows n total counts row').1 := by
  induction counts generalizing sum row row' choices with
  | nil =>
    obtain ⟨rfl, -⟩ := Prod.mk.inj (Option.some.inj h)
    exact ha
  | cons hc counts ih =>
    simp only [bandedRows, Option.ite_none_left_eq_some, Option.map_eq_some_iff] at h
    obtain ⟨-, ⟨final', choices'⟩, hr, heq⟩ := h
    obtain ⟨rfl, -⟩ := Prod.mk.inj heq
    exact ih (ha.layer hn) hn.allLayer hr

lemma allRows_le (hr : row.get s₀ = some c₀) (h : Leads n counts targets s₀ c₀ s c) (hs : s ≤ total) :
    ∃ c', (allRows n total counts row).1.get s = some c' ∧ c' ≤ c := by
  induction counts generalizing targets row s₀ c₀ c with
  | nil =>
    obtain rfl := length_eq_zero_iff.mp h.length
    obtain ⟨rfl, rfl⟩ : s = s₀ ∧ c = c₀ := ⟨h.sum, h.cost⟩
    exact ⟨c, hr, le_rfl⟩
  | cons hcr counts ih =>
    obtain ⟨t, targets, rfl⟩ := exists_cons_of_length_eq_add_one h.length
    have hsum := h.sum
    have hc := h.cost
    rw [sum_cons] at hsum
    rw [disruption, zipWith_cons_cons, sum_cons, ← disruption] at hc
    obtain ⟨ht, he⟩ := forall_mem_cons.mp h.each
    have htr : t ∈ 0 :: feasibleFrom n 1 total := mem_allTargets.mpr (ht.imp_right fun hf => ⟨by omega, hf⟩)
    obtain ⟨c₁, hr₁, hle⟩ := (allLayer_kept n total hcr row (s₀ + t)).of_offer
      ⟨htr, zero_le _, by omega, s₀, c₀, hr, rfl, rfl⟩
    obtain ⟨c', hfn, hle'⟩ := ih hr₁ ⟨succ.inj h.length, he, by omega, rfl⟩
    exact ⟨c', hfn, by omega⟩

lemma get_start : start.get s = some c ↔ s = 0 ∧ c = 0 := by
  rw [start, Dict.get_set]
  split_ifs with hs
  · simp [hs, eq_comm]
  · simp [hs]

lemma near_start : Near 0 start := by
  intro s c h
  obtain ⟨rfl, rfl⟩ := get_start.mp h
  exact zero_le _

lemma Agree.refl (row : Dict ℕ ℕ) : Agree bound row row := fun _ _ _ => Iff.rfl

lemma unrestricted_eq_some (h : (allRows n total counts start).1.get total = some c) :
    ∃ targets, unrestricted n counts total = some (targets, c) ∧ Leads n counts targets 0 0 total c := by
  obtain ⟨-, -, targets, s₀, c₀, -, -, -, hb, hs, hl⟩ := backtrack_agree counts (.refl start) near_start h le_rfl
  obtain ⟨rfl, rfl⟩ := get_start.mp hs
  exact ⟨targets, by simp [unrestricted, h, hb], hl⟩

lemma of_unrestricted (h : unrestricted n counts total = some (targets, c)) :
    (allRows n total counts start).1.get total = some c ∧ Leads n counts targets 0 0 total c := by
  cases hg : (allRows n total counts start).1.get total with
  | none => simp [unrestricted, hg] at h
  | some c' =>
    obtain ⟨targets', h', hl⟩ := unrestricted_eq_some hg
    obtain ⟨rfl, rfl⟩ := Prod.mk.inj (Option.mem_unique h' h)
    exact ⟨rfl, hl⟩

lemma banded_dp_eq (counts : List ℕ) (total : ℕ) (n : ℤ) (bound : ℕ) :
    _banded_dp counts total n bound = .ok ((unrestricted n counts total).filter fun found => found.2 ≤ bound) := by
  cases hf : (unrestricted n counts total).filter fun found => found.2 ≤ bound with
  | some found =>
    obtain ⟨hf, hle⟩ := Option.filter_eq_some_iff.mp hf
    have hle : found.2 ≤ bound := by simpa using hle
    obtain ⟨hg, -⟩ := of_unrestricted hf
    obtain ⟨final, choices, targets, s₀, c₀, hr, hfn, hb, hb', -, -⟩ :=
      backtrack_agree counts (.refl start) near_start hg hle
    have ht : found.1 = targets := by
      simp [unrestricted, hg, hb'] at hf
      exact (congrArg Prod.fst hf).symm
    simp [_banded_dp, hr, hfn, hb, not_lt.mpr hle, ← ht]
  | none =>
    have hn : ∀ c, (allRows n total counts start).1.get total = some c → bound < c := by
      intro c hg
      obtain ⟨targets, h, -⟩ := unrestricted_eq_some hg
      simpa [h] using hf
    unfold _banded_dp
    split
    · rfl
    rename_i final choices hr
    split
    · rfl
    rename_i c hg
    have hlt : c > bound := by
      by_contra hle
      have hc := (bandedRows_agree (.refl start) near_start hr total c (not_lt.mp hle)).mp hg
      exact hle (hn c hc)
    rw [if_pos hlt]

lemma widen_eq (counts : List ℕ) (total : ℕ) (n : ℤ) (hb : bound ≤ total)
    (hr : total < rounds + bound) : widen counts total n rounds bound =
      .ok ((unrestricted n counts total).filter fun found => found.2 ≤ total) := by
  induction rounds generalizing bound with
  | zero => omega
  | succ rounds ih =>
    rw [widen, banded_dp_eq]
    cases hf : (unrestricted n counts total).filter fun found => found.2 ≤ bound with
    | some found =>
      obtain ⟨hf, hle⟩ := Option.filter_eq_some_iff.mp hf
      have hle : found.2 ≤ total := le_trans (by simpa using hle) hb
      rw [Option.filter_eq_some_iff.mpr ⟨hf, decide_eq_true hle⟩]
      rfl
    | none =>
      split_ifs with hge h0
      · obtain rfl := hb.antisymm hge
        rw [hf]
        rfl
      all_goals exact ih (by omega) (by omega)

lemma leads_iff : Leads n counts targets 0 0 counts.sum c ↔
    Partition n counts targets ∧ disruption counts targets = c := by
  constructor
  · intro h
    have hs := h.sum
    have hc := h.cost
    exact ⟨⟨h.length, h.each, by omega⟩, by omega⟩
  · rintro ⟨h, rfl⟩
    exact ⟨h.length, h.each, by rw [h.sum, zero_add], (zero_add _).symm⟩

lemma unrestricted_least (h : unrestricted n counts counts.sum = some (targets, c)) :
    Partition n counts targets ∧ disruption counts targets = c ∧
      ∀ targets', Partition n counts targets' → c ≤ disruption counts targets' := by
  obtain ⟨hg, hl⟩ := of_unrestricted h
  obtain ⟨hp, hc⟩ := leads_iff.mp hl
  refine ⟨hp, hc, fun targets' h' => ?_⟩
  obtain ⟨c', hg', hle⟩ := allRows_le (get_start.mpr ⟨rfl, rfl⟩) (leads_iff.mpr ⟨h', rfl⟩) le_rfl
  obtain rfl := Option.mem_unique hg hg'
  exact hle

lemma unrestricted_isSome (h : Partition n counts targets) :
    ∃ found, unrestricted n counts counts.sum = some found := by
  obtain ⟨c', hg, -⟩ := allRows_le (get_start.mpr ⟨rfl, rfl⟩) (leads_iff.mpr ⟨h, rfl⟩) le_rfl
  obtain ⟨targets', h', -⟩ := unrestricted_eq_some hg
  exact ⟨_, h'⟩

lemma disruption_le (counts targets : List ℕ) : disruption counts targets ≤ targets.sum + counts.sum := by
  induction counts generalizing targets with
  | nil => simp [disruption]
  | cons hc counts ih =>
    cases targets with
    | nil => simp [disruption]
    | cons t targets =>
      have h := ih targets
      simp only [disruption, zipWith_cons_cons, sum_cons, distance] at h ⊢
      omega

variable {groups : List Group} {zone : Zone}

lemma Exact.of_found (hf : zone.feasible = true)
    (h : unrestricted n (groups.map Group.count) (groups.map Group.count).sum = some (targets, zone.disruption))
    (ht : zone.targets = (groups.map Group.id).zip (targets.map fun (t : ℕ) => (t : ℤ))) :
    Exact n groups zone := by
  obtain ⟨hp, hc, hl⟩ := unrestricted_least h
  refine ⟨iff_of_true hf ⟨targets, hp⟩, fun _ => ⟨⟨targets, hp, hc⟩, ?_⟩, fun _ => ⟨targets, h, ht⟩⟩
  rintro d ⟨targets', h', rfl⟩
  exact hl targets' h'

lemma exact_of_empty (n : ℤ) (h : (groups.map Group.count).sum = 0) :
    Exact n groups ⟨true, groups.map fun g => (g.id, 0), 0, []⟩ := by
  have hz : Partition n (groups.map Group.count) (groups.map fun _ => 0) := ⟨by simp, by simp, by simp [h]⟩
  obtain ⟨⟨targets, c⟩, hf⟩ := unrestricted_isSome hz
  obtain ⟨hp, hc, -⟩ := unrestricted_least hf
  have hs : targets.sum = 0 := hp.sum.trans h
  obtain rfl : c = 0 := by
    have := disruption_le (groups.map Group.count) targets
    omega
  have ht : targets = groups.map fun _ => 0 := by
    rw [map_const', eq_replicate_iff, hp.length, length_map]
    exact ⟨rfl, sum_eq_zero_iff.mp hs⟩
  refine .of_found rfl hf ?_
  simp only [ht, map_map, zip_map']
  rfl

theorem solve_zone_exact_iff (n : ℤ) (groups : List Group) :
    ∃ zone, _solve_zone groups (groups.map Group.count).sum n = .ok zone ∧
      (Exact n groups zone ↔ ∀ targets, Partition n (groups.map Group.count) targets →
        ∃ targets', Partition n (groups.map Group.count) targets' ∧
          disruption (groups.map Group.count) targets' ≤ (groups.map Group.count).sum) := by
  have hem : groups.length = 0 → (groups.map Group.count).sum = 0 := fun h => by
    simp [length_eq_zero_iff.mp h]
  simp only [_solve_zone]
  split_ifs with h
  · have hz : (groups.map Group.count).sum = 0 := h.elim hem id
    have he := exact_of_empty n hz
    refine ⟨_, rfl, iff_of_true he fun _ _ => ?_⟩
    obtain ⟨targets, hp, hc⟩ := (he.least rfl).1
    exact ⟨targets, hp, hc.le.trans (zero_le _)⟩
  · rw [widen_eq _ _ n (zero_le _) (lt_succ_self _)]
    cases hfn : (unrestricted n (groups.map Group.count) (groups.map Group.count).sum).filter
        fun found => found.2 ≤ (groups.map Group.count).sum with
    | some found =>
      obtain ⟨hfn, hle⟩ := Option.filter_eq_some_iff.mp hfn
      obtain ⟨hp, hc, -⟩ := unrestricted_least hfn
      refine ⟨_, rfl, iff_of_true (.of_found rfl hfn rfl) fun _ _ => ⟨found.1, hp, ?_⟩⟩
      rw [hc]
      exact of_decide_eq_true hle
    | none =>
      refine ⟨_, rfl, ?_⟩
      constructor
      · intro he targets hp
        cases he.feasible.mpr ⟨targets, hp⟩
      intro hch
      have hno : ¬ ∃ targets, Partition n (groups.map Group.count) targets := by
        rintro ⟨targets, hp⟩
        obtain ⟨targets', hp', hle⟩ := hch targets hp
        obtain ⟨found, hs⟩ := unrestricted_isSome hp
        obtain ⟨-, -, hl⟩ := unrestricted_least hs
        rw [hs, Option.filter_some, if_pos (decide_eq_true ((hl targets' hp').trans hle))] at hfn
        cases hfn
      exact ⟨iff_of_false Bool.false_ne_true hno, fun hf => absurd hf Bool.false_ne_true,
        fun hf => absurd hf Bool.false_ne_true⟩

def singles : List Group := [⟨"a", 1⟩, ⟨"b", 1⟩, ⟨"c", 1⟩]

theorem singles_refused : ∃ zone, _solve_zone singles 3 5 = .ok zone ∧ zone.feasible = false ∧
    Partition 5 (singles.map Group.count) [3, 0, 0] ∧ ¬ Exact 5 singles zone := by
  have hg : Partition 5 (singles.map Group.count) [3, 0, 0] := by
    exact ⟨rfl, by decide, rfl⟩
  refine ⟨_, rfl, rfl, hg, fun he => ?_⟩
  cases he.feasible.mpr ⟨_, hg⟩

end LeafWeb.Autofill
