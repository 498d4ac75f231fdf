import LeafWeb.Lib.Gather
import LeafWeb.Lib.SortOn
import Mathlib.Data.List.Dedup
import Mathlib.Data.List.Perm.Basic
import Mathlib.Data.Prod.Lex

/-! Strings of each level-two inverter, walked in order and cut into combiner groups. -/

namespace LeafWeb.Combiner

open List Lib

structure Options where
  (TargetInputs MinInputs MaxInputs : ℤ)
  AllowRebalanceAboveTarget : Bool

structure StringSummary (P : Type) where
  (l2Number stringNumber rowIndex colIndexMin : ℤ)
  (centroid endpointA endpointB : P)

abbrev Strings (P : Type) := List (StringSummary P)

structure CombinerGroup (P : Type) where
  l2Number : ℤ
  strings : Strings P
  lastRowIndex : ℤ

abbrev Groups (P : Type) := List (CombinerGroup P)

def intMin : ℤ := -2147483648

variable {P D : Type} [LinearOrder D] (dist : P → P → D) (doubleMax : D)

def stringDistance (point : P) (s : StringSummary P) : D :=
  min (min (dist s.centroid point) (dist s.endpointA point)) (dist s.endpointB point)

def walkRow (point : P) (row : Strings P) : Strings P :=
  let row := sortOn (fun s => toLex (s.colIndexMin, s.stringNumber)) row
  match row.head?, row.getLast? with
  | some first, some last =>
    if stringDistance dist point last < stringDistance dist point first then row.reverse else row
  | _, _ => row

def nearest (point : P) (row : Strings P) : D :=
  row.foldl (fun best s => min best (stringDistance dist point s)) doubleMax

def buildLinearWalkOrder (location : Option P) (strings : Strings P) : Strings P :=
  match location with
  | none => sortOn (fun s => toLex (s.rowIndex, toLex (s.colIndexMin, s.stringNumber))) strings
  | some point =>
    let infos := (strings.map StringSummary.rowIndex).dedup.map fun r =>
      (r, walkRow dist point (strings.filter fun s => s.rowIndex = r))
    (sortOn (fun info => toLex (nearest dist doubleMax point info.2, info.1)) infos).flatMap Prod.snd

variable (options : Options)

def startsNew (current : CombinerGroup P) (s : StringSummary P) : Prop :=
  options.TargetInputs ≤ current.strings.length ∨
    options.MinInputs ≤ current.strings.length ∧ current.lastRowIndex ≠ intMin ∧ s.rowIndex ≠ current.lastRowIndex
  deriving Decidable

def CombinerGroup.append (g : CombinerGroup P) (s : StringSummary P) : CombinerGroup P :=
  { g with strings := g.strings ++ [s], lastRowIndex := s.rowIndex }

def cut (l2 : ℤ) (groups : Groups P) (current : CombinerGroup P) :
    Strings P → Groups P
  | [] => if current.strings = [] then groups else groups ++ [current]
  | s :: rest =>
    if startsNew options current s then
      cut l2 (groups ++ [current]) (CombinerGroup.append ⟨l2, [], intMin⟩ s) rest
    else cut l2 groups (current.append s) rest

def shift {A : Type} (minInputs : ℤ) (prev last : List A) : List A × List A :=
  if last.length < minInputs ∧ minInputs < prev.length then
    shift minInputs prev.dropLast (prev.getLast?.toList ++ last)
  else (prev, last)
termination_by prev.length
decreasing_by
  rw [length_dropLast]
  omega

def cap : ℤ := if options.AllowRebalanceAboveTarget then options.MaxInputs else options.TargetInputs

def rebalance (groups : Groups P) : Groups P :=
  match groups.reverse with
  | last :: prev :: front =>
    if last.strings.length < options.MinInputs then
      if last.strings.length + prev.strings.length ≤ cap options then
        front.reverse ++ [{ prev with strings := prev.strings ++ last.strings, lastRowIndex := last.lastRowIndex }]
      else
        let moved := shift options.MinInputs prev.strings last.strings
        front.reverse ++ [{ prev with strings := moved.1 }, { last with strings := moved.2 }]
    else groups
  | _ => groups

def partitionOneL2 (l2 : ℤ) (strings : Strings P) (location : Option P) : Groups P :=
  rebalance options (cut options l2 [] ⟨l2, [], intMin⟩ (buildLinearWalkOrder dist doubleMax location strings))

def byL2 (allStrings : List (Option (StringSummary P))) (l2 : ℤ) : Strings P :=
  (allStrings.filterMap id).filter fun s => s.l2Number = l2

def groupsByL2 (l2Locations : ℤ → Option P) (allStrings : List (Option (StringSummary P))) : Groups P :=
  (sortOn id ((allStrings.filterMap id).map StringSummary.l2Number).dedup).flatMap fun l2 =>
    partitionOneL2 dist doubleMax options l2 (byL2 allStrings l2) (l2Locations l2)

def partition (l2Locations : ℤ → Option P) (allStrings : List (Option (StringSummary P))) :
    Except String (Groups P) := do
  refuse (options.TargetInputs ≤ 0) "TargetInputs must be > 0"
  refuse (options.MinInputs < 0) "MinInputs must be >= 0"
  refuse (options.MaxInputs < options.TargetInputs) "MaxInputs must be >= TargetInputs"
  refuse (options.TargetInputs < options.MinInputs) "MinInputs must be <= TargetInputs"
  return groupsByL2 dist doubleMax options l2Locations allStrings

lemma flatMap_filter_perm {A K : Type} [DecidableEq K] (key : A → K) (l : List A) {ks : List K} (hn : ks.Nodup) :
    (ks.flatMap fun k => l.filter fun a => key a = k).Perm (l.filter fun a => key a ∈ ks) := by
  induction ks with
  | nil => simp
  | cons k ks ih =>
    obtain ⟨hk, hn⟩ := nodup_cons.mp hn
    refine Perm.trans ?_ (filter_append_perm (fun a => key a = k) (l.filter fun a => key a ∈ k :: ks))
    rw [flatMap_cons, filter_filter, filter_filter]
    refine Perm.append ?_ ((ih hn).trans ?_)
    all_goals
      rw [filter_congr]
      grind

variable {options}

lemma walkRow_perm (point : P) (row : Strings P) : (walkRow dist point row).Perm row := by
  have hs := sortOn_perm (fun s : StringSummary P => toLex (s.colIndexMin, s.stringNumber)) row
  unfold walkRow
  dsimp only
  split
  · split_ifs
    · exact (reverse_perm _).trans hs
    · exact hs
  · exact hs

lemma buildLinearWalkOrder_perm (location : Option P) (strings : Strings P) :
    (buildLinearWalkOrder dist doubleMax location strings).Perm strings := by
  cases location with
  | none => exact sortOn_perm _ strings
  | some point =>
    refine ((sortOn_perm _ _).flatMap fun _ _ => .rfl).trans ?_
    rw [flatMap_map]
    refine (Perm.flatMap_left _ fun r _ => walkRow_perm dist point _).trans ?_
    refine (flatMap_filter_perm StringSummary.rowIndex strings (nodup_dedup _)).trans ?_
    rw [filter_eq_self.mpr]
    intro s hs
    simpa using ⟨s, hs, rfl⟩

lemma shift_spec {A : Type} (least : ℤ) (prev last : List A) :
    (shift least prev last).1 ++ (shift least prev last).2 = prev ++ last ∧
      (least ≤ prev.length → least ≤ (shift least prev last).1.length) ∧
      (last.length ≤ least → (shift least prev last).2.length ≤ least) ∧
      last.length ≤ (shift least prev last).2.length ∧
      (2 * least ≤ prev.length + last.length → least ≤ (shift least prev last).2.length) := by
  fun_induction shift least prev last with
  | case1 prev last h ih =>
    have hp : prev ≠ [] := by
      rintro rfl
      simp at h
      omega
    generalize shift least prev.dropLast (prev.getLast?.toList ++ last) = moved at ih ⊢
    rw [getLast?_eq_some_getLast hp, Option.toList_some, ← append_assoc, dropLast_append_getLast] at ih
    simp only [length_dropLast, length_append, length_singleton] at ih
    refine ⟨ih.1, fun hm => ih.2.1 ?_, fun hl => ih.2.2.1 ?_, ?_, fun hs => ih.2.2.2.2 ?_⟩
    all_goals omega
  | case2 prev last h =>
    dsimp only
    exact ⟨rfl, id, id, le_rfl, fun hs => by omega⟩

structure Cut (options : Options) (l2 : ℤ) (groups : Groups P) : Prop where
  own : ∀ g ∈ groups, g.l2Number = l2 ∧ g.strings ≠ [] ∧ g.strings.length ≤ options.TargetInputs
  full : ∀ g ∈ groups.dropLast, options.MinInputs ≤ g.strings.length

structure Valid (options : Options) : Prop where
  positive : 0 < options.TargetInputs
  nonneg : 0 ≤ options.MinInputs
  target_le : options.TargetInputs ≤ options.MaxInputs
  min_le : options.MinInputs ≤ options.TargetInputs

lemma cut_spec (hv : Valid options) (l2 : ℤ) (rest : Strings P) (groups : Groups P)
    (current : CombinerGroup P) (hg : Cut options l2 groups)
    (hf : ∀ g ∈ groups, options.MinInputs ≤ g.strings.length)
    (hl : current.l2Number = l2) (hc : current.strings.length ≤ options.TargetInputs)
    (he : current.strings = [] → current.lastRowIndex = intMin) :
    (cut options l2 groups current rest).flatMap CombinerGroup.strings =
        groups.flatMap CombinerGroup.strings ++ current.strings ++ rest ∧
      Cut options l2 (cut options l2 groups current rest) := by
  induction rest generalizing groups current with
  | nil =>
    rw [cut]
    split_ifs with hn
    · simpa [hn] using hg
    refine ⟨by simp, ?_, by simpa using hf⟩
    intro g hm
    rcases mem_append.mp hm with hm | hm
    · exact hg.own g hm
    · rw [mem_singleton.mp hm]
      exact ⟨hl, hn, hc⟩
  | cons s rest ih =>
    rw [cut]
    split_ifs with hs
    · have hf' : ∀ g ∈ groups ++ [current], options.MinInputs ≤ g.strings.length := by
        intro g hm
        rcases mem_append.mp hm with hm | hm
        · exact hf g hm
        rw [mem_singleton.mp hm]
        have := hv.min_le
        unfold startsNew at hs
        omega
      have hne : current.strings ≠ [] := by
        intro hn
        have := hv.positive
        simp [startsNew, hn, he hn] at hs
        omega
      have hst := ih (groups ++ [current]) (CombinerGroup.append ⟨l2, [], intMin⟩ s) ⟨?_, ?_⟩ hf' rfl ?_ ?_
      · simpa [CombinerGroup.append] using hst
      · intro g hm
        rcases mem_append.mp hm with hm | hm
        · exact hg.own g hm
        · rw [mem_singleton.mp hm]
          exact ⟨hl, hne, hc⟩
      · simpa using hf
      · have := hv.positive
        simp [CombinerGroup.append]
        omega
      · simp [CombinerGroup.append]
    · have hst := ih groups (current.append s) hg hf hl ?_ ?_
      · simpa [CombinerGroup.append] using hst
      · simp [CombinerGroup.append]
        unfold startsNew at hs
        omega
      · simp [CombinerGroup.append]

lemma target_le_cap (hv : Valid options) : options.TargetInputs ≤ cap options := by
  unfold cap
  split_ifs
  · exact hv.target_le
  · exact le_rfl

structure Grouped (options : Options) (l2 : ℤ) (ordered : Strings P) (groups : Groups P) : Prop where
  joined : groups.flatMap CombinerGroup.strings = ordered
  own : ∀ g ∈ groups, g.l2Number = l2 ∧ g.strings ≠ [] ∧ g.strings.length ≤ cap options
  filled : options.MinInputs ≤ ordered.length → 2 * options.MinInputs - 1 ≤ options.TargetInputs →
    ∀ g ∈ groups, options.MinInputs ≤ g.strings.length

lemma rebalance_spec {l2 : ℤ} (hv : Valid options) {groups : Groups P} (h : Cut options l2 groups) :
    Grouped options l2 (groups.flatMap CombinerGroup.strings) (rebalance options groups) := by
  have hcap := target_le_cap hv
  have ho : ∀ g ∈ groups, g.l2Number = l2 ∧ g.strings ≠ [] ∧ g.strings.length ≤ cap options :=
    fun g hg => ⟨(h.own g hg).1, (h.own g hg).2.1, (h.own g hg).2.2.trans hcap⟩
  have ht : ∀ {last prev front}, groups.reverse = last :: prev :: front →
      groups = front.reverse ++ [prev] ++ [last] := by
    intro last prev front heq
    rw [← reverse_reverse groups, heq]
    simp
  have hfl := h.full
  fun_cases rebalance options groups with
  | case1 last prev front heq hs hc =>
    obtain rfl := ht heq
    simp only [dropLast_concat, forall_mem_append, forall_mem_singleton] at ho hfl
    obtain ⟨⟨hf, hp⟩, hl⟩ := ho
    refine ⟨by simp, ?_, fun _ _ => ?_⟩
    · simp only [forall_mem_append, forall_mem_singleton]
      refine ⟨hf, hp.1, by simp [hp.2.1], ?_⟩
      rw [length_append]
      omega
    · simp only [forall_mem_append, forall_mem_singleton, length_append]
      exact ⟨hfl.1, by omega⟩
  | case2 last prev front heq hs hc moved =>
    obtain rfl := ht heq
    simp only [dropLast_concat, forall_mem_append, forall_mem_singleton] at ho hfl
    obtain ⟨⟨hf, hp⟩, hl⟩ := ho
    have hsh := shift_spec options.MinInputs prev.strings last.strings
    rw [show shift options.MinInputs prev.strings last.strings = moved from rfl] at hsh
    obtain ⟨hj, hpr, hls, hle, hm⟩ := hsh
    have hlen := congrArg List.length hj
    simp only [length_append] at hlen
    refine ⟨by simpa using hj, ?_, fun _ _ => ?_⟩
    · simp only [forall_mem_append, forall_mem_cons, not_mem_nil, IsEmpty.forall_iff, implies_true, and_true]
      refine ⟨hf, ⟨hp.1, length_pos_iff.mp ?_, ?_⟩, hl.1, length_pos_iff.mp ?_, ?_⟩
      all_goals omega
    · simp only [forall_mem_append, forall_mem_cons, not_mem_nil, IsEmpty.forall_iff, implies_true, and_true]
      exact ⟨hfl.1, hpr hfl.2, hm (by omega)⟩
  | case3 last prev front heq hs =>
    obtain rfl := ht heq
    refine ⟨rfl, ho, fun _ _ => ?_⟩
    simp only [dropLast_concat] at hfl
    exact forall_mem_append.mpr ⟨hfl, by simpa using hs⟩
  | case4 hsr =>
    refine ⟨rfl, ho, fun hm _ g hg => ?_⟩
    rcases eq_nil_or_concat groups with rfl | ⟨front, last, rfl⟩
    · cases hg
    rcases eq_nil_or_concat front with rfl | ⟨front, prev, rfl⟩
    · obtain rfl : g = last := by simpa using hg
      simpa using hm
    · exact absurd (by simp) (hsr last prev front.reverse)

lemma partitionOneL2_grouped (hv : Valid options) (l2 : ℤ) (strings : Strings P) (location : Option P) :
    Grouped options l2 (buildLinearWalkOrder dist doubleMax location strings)
      (partitionOneL2 dist doubleMax options l2 strings location) := by
  have hc := cut_spec hv l2 (buildLinearWalkOrder dist doubleMax location strings) [] ⟨l2, [], intMin⟩
    ⟨by simp, by simp⟩ (by simp) rfl hv.positive.le fun _ => rfl
  have h := rebalance_spec hv hc.2
  rw [hc.1] at h
  exact h

lemma filter_flatMap_own {f : ℤ → Groups P} (ho : ∀ k, ∀ g ∈ f k, g.l2Number = k) (l2 : ℤ)
    {ks : List ℤ} (hn : ks.Nodup) :
    (ks.flatMap f).filter (fun g => g.l2Number = l2) = if l2 ∈ ks then f l2 else [] := by
  induction ks with
  | nil => simp
  | cons k ks ih =>
    obtain ⟨hk, hn⟩ := nodup_cons.mp hn
    rw [flatMap_cons, filter_append, ih hn]
    by_cases heq : l2 = k
    · subst heq
      rw [filter_eq_self.mpr fun g hg => decide_eq_true (ho l2 g hg)]
      simp [hk]
    · rw [filter_eq_nil_iff.mpr fun g hg => by simpa [ho k g hg] using Ne.symm heq]
      simp [heq]

theorem partition_respects_inputs (hv : Valid options) (l2Locations : ℤ → Option P)
    (allStrings : List (Option (StringSummary P))) :
    ∃ groups, partition dist doubleMax options l2Locations allStrings = .ok groups ∧
      ∀ l2, (buildLinearWalkOrder dist doubleMax (l2Locations l2) (byL2 allStrings l2)).Perm (byL2 allStrings l2) ∧
        Grouped options l2 (buildLinearWalkOrder dist doubleMax (l2Locations l2) (byL2 allStrings l2))
          (groups.filter fun g => g.l2Number = l2) := by
  refine ⟨groupsByL2 dist doubleMax options l2Locations allStrings, ?_, fun l2 => ?_⟩
  · simp only [partition, bind_refuse, not_le, not_lt, pure_eq_ok, and_true]
    exact ⟨hv.positive, hv.nonneg, hv.target_le, hv.min_le⟩
  have hw := buildLinearWalkOrder_perm dist doubleMax (l2Locations l2) (byL2 allStrings l2)
  have hg := fun l2 => partitionOneL2_grouped dist doubleMax hv l2 (byL2 allStrings l2) (l2Locations l2)
  refine ⟨hw, ?_⟩
  rw [groupsByL2, filter_flatMap_own (fun k g hm => ((hg k).own g hm).1) l2
    ((sortOn_perm id _).nodup_iff.mpr (nodup_dedup _))]
  split_ifs with hl
  · exact hg l2
  · have hn : byL2 allStrings l2 = [] := by
      apply filter_eq_nil_iff.mpr
      intro s hs
      simp only [mem_sortOn, mem_dedup, mem_map, not_exists, not_and] at hl
      simpa using hl s hs
    rw [hn] at hw ⊢
    rw [hw.eq_nil]
    exact ⟨rfl, by simp, by simp⟩

def inRow (row number : ℤ) : StringSummary Unit := ⟨1, number, row, number, (), (), ()⟩

theorem three_strings_grouped :
    ∃ groups, partition (fun _ _ => (0 : ℤ)) 0 ⟨3, 2, 3, false⟩ (fun _ => some ())
      [inRow 1 1, none, inRow 1 2, inRow 2 3] = .ok groups ∧ ∀ g ∈ groups.filter fun g =>
        g.l2Number = 1, 2 ≤ g.strings.length := by
  have hv : Valid ⟨3, 2, 3, false⟩ := ⟨by decide, by decide, by decide, by decide⟩
  obtain ⟨groups, hok, hl2⟩ := partition_respects_inputs (fun _ _ => (0 : ℤ)) 0 hv (fun _ => some ())
    [inRow 1 1, none, inRow 1 2, inRow 2 3]
  obtain ⟨hp, hg⟩ := hl2 1
  have hm : (2 : ℤ) ≤ _ → _ := hg.filled
  rw [hp.length_eq] at hm
  exact ⟨groups, hok, fun g hmem => Int.ofNat_le.mp (hm (by decide) (by decide) g hmem)⟩

end LeafWeb.Combiner
