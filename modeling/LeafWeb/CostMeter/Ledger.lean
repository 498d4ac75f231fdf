import LeafWeb.Lib.LargestRemainder
import Mathlib.Algebra.BigOperators.Ring.List
import Mathlib.Data.String.Basic

namespace LeafWeb.CostMeter

open List Lib Lib.LargestRemainder Int Function

abbrev Participant := String ×ₗ String

abbrev Usage := Participant × ℚ

def unattributed : Participant := toLex ("leaf", "unattributed")

def participantId (s : String) : Bool :=
  match s.toList with
  | [] => false
  | c :: rest => c.isAlphanum && rest.length ≤ 127 && rest.all fun c => c.isAlphanum || c ∈ ['_', '.', ':', '-']

def validParticipant (key : Participant) : Bool :=
  participantId (ofLex key).1 && if (ofLex key).1 = "leaf" then
    (ofLex key).2 ∈ ["development", "ci", "fleet", "unattributed"] else (ofLex key).2 = ""

inductive Status where
  | measured | estimated

inductive Refusal where
  | participant (key : Participant)
  | duplicate (key : Participant)
  | negative (usage : ℚ)
  | inexact
  | exceeds (attributed total : ℚ)
  | range (share : ℚ)
  | places (share : ℚ)
  | empty
  | notOne (total : ℚ)

structure ResourcePeriod where
  totalUsage : Option ℚ
  nonneg : ∀ total ∈ totalUsage, 0 ≤ total

structure ShareEntry where
  key : Participant
  participantUsage : Option ℚ
  usageShare : ℚ
  status : Status

def scale : ℤ := 10 ^ 12

def shareEntry (entry : ShareEntry) : Except Refusal ShareEntry :=
  if ¬ validParticipant entry.key then .error (.participant entry.key)
  else if entry.participantUsage.getD 0 < 0 then .error (.negative (entry.participantUsage.getD 0))
  else if entry.usageShare < 0 ∨ 1 < entry.usageShare then .error (.range entry.usageShare)
  else if (entry.usageShare * scale).den ≠ 1 then .error (.places entry.usageShare)
  else .ok entry

def validateLoop (seen : List Participant) (total : ℚ) : List ShareEntry → Except Refusal ℚ
  | [] => .ok total
  | entry :: rest =>
    if entry.key ∈ seen then .error (.duplicate entry.key)
    else validateLoop (entry.key :: seen) (total + entry.usageShare) rest

def validateShares (shares : List ShareEntry) : Except Refusal (List ShareEntry) :=
  if shares.isEmpty then .error .empty
  else do
    let total ← validateLoop [] 0 shares
    if total = 1 then .ok shares else .error (.notOne total)

/-- A sum in a decimal context that traps what it cannot hold; `exact` says which values it holds. -/
def add (exact : ℚ → Bool) (a b : ℚ) : Except Refusal ℚ := if exact (a + b) then .ok (a + b) else .error .inexact

def measure (measured : List Usage) : List Usage → Except Refusal (List Usage)
  | [] => .ok measured
  | usage :: rest =>
    if ¬ validParticipant usage.1 then .error (.participant usage.1)
    else if usage.1 ∈ measured.map Prod.fst then .error (.duplicate usage.1)
    else if usage.2 < 0 then .error (.negative usage.2)
    else measure (measured ++ [usage]) rest

def usageOf (measured : List Usage) (key : Participant) : ℚ :=
  ((measured.find? fun usage => usage.1 = key).map Prod.snd).getD 0

def others (measured : List Usage) : List Usage := measured.filter fun usage => usage.1 ≠ unattributed

def settle (exact : ℚ → Bool) (remainder : ℚ) (measured : List Usage) : Except Refusal (List Usage) :=
  if 0 < remainder then do
    let usage ← add exact (usageOf measured unattributed) remainder
    .ok ((unattributed, usage) :: others measured)
  else .ok measured

def exactUnits (total : ℚ) (row : Usage) : ℚ := row.2 * scale / total

def entryOf (total : ℚ) (status : Status) (rows : List Usage) (row : Usage) : ShareEntry :=
  ⟨row.1, some row.2, units Prod.fst (exactUnits total) scale rows row / scale, status⟩

def wholly (total : Option ℚ) : ShareEntry := ⟨unattributed, total, 1, .estimated⟩

def sharesOf (total : ℚ) (status : Status) (measured : List Usage) : List ShareEntry :=
  (sortOn Prod.fst measured).map (entryOf total status (sortOn Prod.fst measured))

def apportion (exact : ℚ → Bool) (total attributed : ℚ) (measured : List Usage) (status : Status) :
    Except Refusal (List ShareEntry) := do
  let remainder ← add exact total (-attributed)
  let rows ← settle exact remainder measured
  (sharesOf total status rows).mapM shareEntry

def computeShares (exact : ℚ → Bool) (period : ResourcePeriod) (usages : List Usage) (status : Status) :
    Except Refusal (List ShareEntry) := do
  let measured ← measure [] usages
  let attributed ← (measured.map Prod.snd).foldlM (add exact) 0
  match period.totalUsage with
  | none => [wholly none].mapM shareEntry
  | some total =>
    if total < attributed then .error (.exceeds attributed total)
    else if total = 0 ∨ measured.isEmpty then [wholly (some total)].mapM shareEntry
    else apportion exact total attributed measured status

section

variable {exact : ℚ → Bool} {period : ResourcePeriod} {usages usages' : List Usage} {total a b : ℚ}
  {status : Status}

def partialSums (total : ℚ) : List ℚ → List ℚ
  | [] => []
  | value :: rest => (total + value) :: partialSums (total + value) rest

def attributed (usages : List Usage) : ℚ := (usages.map Prod.snd).sum

def settledUsage (total : ℚ) (usages : List Usage) (key : Participant) : ℚ :=
  usageOf usages key + if key = unattributed then total - attributed usages else 0

def sums (period : ResourcePeriod) (usages : List Usage) : List ℚ :=
  partialSums 0 (usages.map Prod.snd) ++ match period.totalUsage with
    | none => []
    | some total =>
      if total = 0 ∨ usages.isEmpty then []
      else (total - attributed usages) ::
        if attributed usages < total then [settledUsage total usages unattributed] else []

structure Usages (usages : List Usage) : Prop where
  valid : ∀ usage ∈ usages, validParticipant usage.1
  nonneg : ∀ usage ∈ usages, 0 ≤ usage.2
  distinct : (usages.map Prod.fst).Nodup

lemma measure_eq (h : Usages usages) (measured : List Usage) (hd : ((measured ++ usages).map Prod.fst).Nodup) :
    measure measured usages = .ok (measured ++ usages) := by
  induction usages generalizing measured with
  | nil => simp [measure]
  | cons usage rest ih =>
    have hr : Usages rest := ⟨fun u hu => h.valid u (.tail _ hu), fun u hu => h.nonneg u (.tail _ hu),
      (nodup_cons.mp h.distinct).2⟩
    have hn : usage.1 ∉ measured.map Prod.fst := by
      rw [map_append, nodup_append] at hd
      exact fun hm => hd.2.2 _ hm _ (.head _) rfl
    rw [measure, if_neg (not_not.mpr (h.valid usage (.head _))), if_neg hn,
      if_neg (h.nonneg usage (.head _)).not_gt, ih hr _ (by simpa using hd)]
    simp

lemma foldlM_add (values : List ℚ) (a : ℚ) : values.foldlM (add exact) a =
    if (partialSums a values).all exact then .ok (a + values.sum) else .error .inexact := by
  induction values generalizing a with
  | nil => simp [partialSums, pure, Except.pure]
  | cons value rest ih =>
    by_cases h : exact (a + value)
    · have ha : add exact a value = .ok (a + value) := if_pos h
      simp only [foldlM_cons, ha, partialSums, all_cons, h, sum_cons, ← add_assoc]
      exact ih _
    · simp [add, partialSums, h, bind, Except.bind]

lemma usageOf_eq {usage : Usage} (hd : (usages.map Prod.fst).Nodup) (h : usage ∈ usages) :
    usageOf usages usage.1 = usage.2 := by
  obtain ⟨found, hf⟩ : ∃ found, usages.find? (fun u => u.1 = usage.1) = some found :=
    Option.isSome_iff_exists.mp (find?_isSome.mpr ⟨usage, h, by simp⟩)
  have hk : found.1 = usage.1 := by simpa using find?_some hf
  rw [usageOf, hf, inj_on_of_nodup_map hd (mem_of_find?_eq_some hf) h hk]
  rfl

lemma attributed_eq (hd : (usages.map Prod.fst).Nodup) :
    attributed usages = usageOf usages unattributed + attributed (others usages) := by
  induction usages with
  | nil => simp [usageOf, others]
  | cons usage rest ih =>
    obtain ⟨hn, hr⟩ := nodup_cons.mp hd
    by_cases hk : usage.1 = unattributed
    · have ho : others rest = rest := by
        apply filter_eq_self.mpr
        intro u hu
        simpa [← hk] using fun heq : u.1 = usage.1 => hn (heq ▸ mem_map_of_mem hu)
      rw [others, filter_cons_of_neg (by simpa using hk), ← others, ho]
      simp [attributed, usageOf, hk]
    · have ha := ih hr
      simp only [attributed, usageOf, others, find?_cons, filter_cons, hk, decide_false, map_cons, sum_cons,
        ne_eq, not_false_eq_true, decide_true, if_true] at ha ⊢
      rw [ha]
      ring

def settled (total : ℚ) (usages : List Usage) : List Usage :=
  if attributed usages < total then (unattributed, settledUsage total usages unattributed) :: others usages
  else usages

def shares (period : ResourcePeriod) (usages : List Usage) (status : Status) : List ShareEntry :=
  match period.totalUsage with
  | none => [wholly none]
  | some total =>
    if total = 0 ∨ usages.isEmpty then [wholly (some total)] else sharesOf total status (settled total usages)

lemma settle_eq : settle exact (total - attributed usages) usages =
    if (if attributed usages < total then [settledUsage total usages unattributed] else []).all exact then
      .ok (settled total usages) else .error .inexact := by
  by_cases h : attributed usages < total
  · by_cases he : exact (settledUsage total usages unattributed)
    · simp_all [settle, CostMeter.settled, settledUsage, add, bind, Except.bind]
    · simp_all [settle, settledUsage, add, bind, Except.bind]
  · simp [settle, settled, h]

lemma settledUsage_unattributed (hd : (usages.map Prod.fst).Nodup) :
    settledUsage total usages unattributed = total - attributed (others usages) := by
  rw [settledUsage, if_pos rfl, attributed_eq hd]
  ring

lemma apportion_eq (h : (sharesOf total status (settled total usages)).mapM shareEntry =
    .ok (sharesOf total status (settled total usages))) :
    apportion exact total (attributed usages) usages status =
      if ((total - attributed usages) ::
        if attributed usages < total then [settledUsage total usages unattributed] else []).all exact then
      .ok (sharesOf total status (settled total usages)) else .error .inexact := by
  by_cases he : exact (total - attributed usages)
  · simp only [apportion, add, ← sub_eq_add_neg, he, if_true, bind, Except.bind, settle_eq, all_cons,
      Bool.true_and]
    split_ifs
    all_goals first | exact h | rfl
  · simp [apportion, add, ← sub_eq_add_neg, he, bind, Except.bind]

lemma valid_unattributed : validParticipant unattributed = true := by decide

section

variable (h : Usages usages)
include h

lemma Usages.usageOf_nonneg {key : Participant} : 0 ≤ usageOf usages key := by
  unfold usageOf
  cases hf : usages.find? fun usage => usage.1 = key with
  | none => exact le_rfl
  | some usage => exact h.nonneg usage (mem_of_find?_eq_some hf)

lemma Usages.settled (hle : attributed usages ≤ total) : Usages (settled total usages) := by
  unfold CostMeter.settled
  split_ifs with hlt
  · have hs : (others usages).Sublist usages := filter_sublist
    constructor
    · rintro _ (_ | ⟨_, hu⟩)
      · exact valid_unattributed
      · exact h.valid _ (hs.subset hu)
    · rintro _ (_ | ⟨_, hu⟩)
      · exact add_nonneg h.usageOf_nonneg (sub_nonneg.mpr hle)
      · exact h.nonneg _ (hs.subset hu)
    · refine nodup_cons.mpr ⟨?_, (hs.map _).nodup h.distinct⟩
      simp [others]
  · exact h

lemma attributed_settled (hle : attributed usages ≤ total) : attributed (settled total usages) = total := by
  unfold settled
  split_ifs with hlt
  · rw [settledUsage_unattributed h.distinct, attributed, map_cons, sum_cons, ← attributed, sub_add_cancel]
  · exact le_antisymm hle (not_lt.mp hlt)

lemma snd_settled {row : Usage} (hle : attributed usages ≤ total) (hr : row ∈ settled total usages) :
    row.2 = settledUsage total usages row.1 := by
  unfold settled at hr
  split_ifs at hr with hlt
  · rcases hr with _ | ⟨_, hr⟩
    · rfl
    · obtain ⟨hm, hk⟩ := mem_filter.mp hr
      rw [settledUsage, usageOf_eq h.distinct hm, if_neg (of_decide_eq_true hk), add_zero]
  · rw [settledUsage, usageOf_eq h.distinct hr, le_antisymm hle (not_lt.mp hlt), sub_self, ite_self, add_zero]

end

structure Revision (shares : List ShareEntry) : Prop where
  nonempty : shares ≠ []
  valid : ∀ entry ∈ shares, validParticipant entry.key ∧ 0 ≤ entry.participantUsage.getD 0
  units : ∀ entry ∈ shares, ∃ n : ℕ, entry.usageShare = n / scale
  one : (shares.map ShareEntry.usageShare).sum = 1
  distinct : (shares.map ShareEntry.key).Nodup

lemma validateLoop_eq (shares : List ShareEntry) (seen : List Participant) (total : ℚ)
    (h : (shares.map ShareEntry.key).Nodup) (hs : ∀ entry ∈ shares, entry.key ∉ seen) :
    validateLoop seen total shares = .ok (total + (shares.map ShareEntry.usageShare).sum) := by
  induction shares generalizing seen total with
  | nil => simp [validateLoop]
  | cons entry rest ih =>
    obtain ⟨hn, hr⟩ := nodup_cons.mp h
    rw [validateLoop, if_neg (hs _ (.head _)), ih _ _ hr, map_cons, sum_cons, add_assoc]
    intro other ho
    rw [mem_cons, not_or]
    exact ⟨fun heq => hn (heq ▸ mem_map_of_mem ho), hs _ (.tail _ ho)⟩

lemma Revision.validate {shares : List ShareEntry} (h : Revision shares) : validateShares shares = .ok shares := by
  rw [validateShares, if_neg (by simpa using h.nonempty), validateLoop_eq shares [] 0 h.distinct (by simp), h.one]
  exact if_pos (zero_add 1)

lemma Revision.mapM {shares : List ShareEntry} (h : Revision shares) : shares.mapM shareEntry = .ok shares := by
  have hng : ∀ entry ∈ shares, 0 ≤ entry.usageShare := by
    intro entry het
    obtain ⟨n, hn⟩ := h.units entry het
    rw [hn]
    exact div_nonneg n.cast_nonneg (by norm_num [scale])
  have hen : ∀ entry ∈ shares, shareEntry entry = .ok entry := by
    intro entry het
    obtain ⟨n, hn⟩ := h.units entry het
    have hle : entry.usageShare ≤ 1 := by
      rw [← h.one]
      exact single_le_sum (by simpa using hng) _ (mem_map_of_mem het)
    have hp : entry.usageShare * scale = n := by
      rw [hn, scale]
      norm_num
    obtain ⟨hv, hu⟩ := h.valid entry het
    simp [shareEntry, hv, hu.not_gt, (hng entry het).not_gt, hle.not_gt, hp]
  clear hng h
  induction shares with
  | nil => rfl
  | cons entry rest ih =>
    simp only [mapM_cons, hen entry (.head _), ih fun e he => hen e (.tail _ he)]
    rfl

lemma revision_wholly {total : Option ℚ} (h : 0 ≤ total.getD 0) : Revision [wholly total] :=
  ⟨by simp, by simpa [wholly, valid_unattributed] using h,
    by simpa [wholly] using ⟨10 ^ 12, by norm_num [scale]⟩, by simp [wholly], by simp⟩

section

variable (htotal : 0 < total) (hsum : attributed usages = total)
include htotal hsum

lemma sum_exactUnits : ((sortOn Prod.fst usages).map (exactUnits total)).sum = scale := by
  have hm : exactUnits total = fun row => row.2 * (scale / total) := funext fun row => mul_div_assoc ..
  rw [hm, sum_map_mul_right, ((sortOn_perm Prod.fst usages).map Prod.snd).sum_eq, ← attributed, hsum,
    mul_div_cancel₀ _ htotal.ne']

lemma revision_sharesOf (h : Usages usages) : Revision (sharesOf total status usages) := by
  have hu := sum_exactUnits htotal hsum
  have hd : ((sortOn Prod.fst usages).map Prod.fst).Nodup := nodup_map_sortOn.mpr h.distinct
  constructor
  · rintro hnil
    have he : usages = [] := by simpa [sharesOf, ← length_eq_zero_iff] using hnil
    simp [he] at hsum
    exact htotal.ne hsum
  · simp only [sharesOf, mem_map, mem_sortOn]
    rintro _ ⟨row, hr, rfl⟩
    exact ⟨h.valid row hr, h.nonneg row hr⟩
  · simp only [sharesOf, mem_map, mem_sortOn]
    rintro _ ⟨row, hr, rfl⟩
    have hec : 0 ≤ exactUnits total row :=
      div_nonneg (mul_nonneg (h.nonneg row hr) (by norm_num [scale])) htotal.le
    obtain ⟨n, hn⟩ := eq_ofNat_of_zero_le (units_nonneg Prod.fst scale (sortOn Prod.fst usages) hec)
    exact ⟨n, by rw [entryOf, hn, cast_natCast]⟩
  · have ho := congrArg (castRingHom ℚ) (sum_units hu Prod.fst hd.of_map)
    simp only [sharesOf, entryOf, map_map, comp_def, div_eq_mul_inv, sum_map_mul_right]
    rw [map_list_sum, map_map] at ho
    exact (congrArg (· * _) ho).trans (by norm_num [scale])
  · simpa [sharesOf, entryOf, comp_def] using hd

end

section

variable (h : Usages usages) (hle : ∀ total ∈ period.totalUsage, attributed usages ≤ total)
include h hle

lemma revision_shares (status : Status) : Revision (shares period usages status) := by
  unfold shares
  cases htotal : period.totalUsage with
  | none => exact revision_wholly le_rfl
  | some total =>
    have hle' := hle total htotal
    simp only
    split_ifs with hw
    · exact revision_wholly (period.nonneg total htotal)
    · have hp : 0 < total := (period.nonneg total htotal).lt_of_ne fun heq => hw (.inl heq.symm)
      exact revision_sharesOf hp (attributed_settled h hle') (h.settled hle')

lemma computeShares_eq : computeShares exact period usages status =
    if (sums period usages).all exact then .ok (shares period usages status) else .error .inexact := by
  have hms : measure [] usages = .ok usages := measure_eq h [] h.distinct
  have ha : (usages.map Prod.snd).foldlM (add exact) 0 =
      if (partialSums 0 (usages.map Prod.snd)).all exact then .ok (attributed usages) else .error .inexact := by
    rw [foldlM_add, zero_add, attributed]
  have hm := (revision_shares h hle status).mapM
  simp only [computeShares, hms, bind, Except.bind, ha, sums, all_append]
  by_cases hp : (partialSums 0 (usages.map Prod.snd)).all exact
  · simp only [hp, if_true]
    unfold shares at hm ⊢
    cases htotal : period.totalUsage with
    | none => simpa [htotal] using hm
    | some total =>
      simp only [htotal, (hle total htotal).not_gt] at hm ⊢
      by_cases hw : total = 0 ∨ usages.isEmpty
      · simp only [hw] at hm ⊢
        exact hm
      · simp only [hw] at hm ⊢
        exact apportion_eq hm
  · simp [hp]

end

structure Follows (total : ℚ) (usages : List Usage) (shares : List ShareEntry) : Prop where
  near : ∀ entry ∈ shares, |entry.usageShare - settledUsage total usages entry.key / total| < 1 / scale
  monotone : ∀ a ∈ shares, ∀ b ∈ shares,
    settledUsage total usages a.key < settledUsage total usages b.key → a.usageShare ≤ b.usageShare
  covered : ∀ usage ∈ usages, usage.1 ∈ shares.map ShareEntry.key

lemma follows_sharesOf (h : Usages usages) (htotal : 0 < total) (hle : attributed usages ≤ total) :
    Follows total usages (sharesOf total status (settled total usages)) := by
  have hs : (0 : ℚ) < scale := by norm_num [scale]
  have hun := sum_exactUnits htotal (attributed_settled h hle)
  constructor
  · simp only [sharesOf, mem_map, mem_sortOn]
    rintro _ ⟨row, hr, rfl⟩
    have hn := abs_units_sub hun Prod.fst row
    rw [lt_div_iff₀ hs, ← abs_of_pos hs, ← abs_mul, entryOf, ← snd_settled h hle hr, sub_mul,
      div_mul_cancel₀ _ hs.ne', div_mul_eq_mul_div]
    exact hn
  · simp only [sharesOf, mem_map, mem_sortOn]
    rintro _ ⟨row, hr, rfl⟩ _ ⟨row', hr', rfl⟩ hlt
    simp only [entryOf, ← snd_settled h hle hr, ← snd_settled h hle hr'] at hlt ⊢
    have he : exactUnits total row < exactUnits total row' :=
      div_lt_div_of_pos_right (mul_lt_mul_of_pos_right hlt hs) htotal
    have hm := units_mono Prod.fst scale ((sortOn_perm Prod.fst _).mem_iff.mpr hr') he
    exact div_le_div_of_nonneg_right (by exact_mod_cast hm) hs.le
  · intro usage hu
    have hk : usage.1 ∈ (settled total usages).map Prod.fst := by
      unfold settled
      split_ifs
      · by_cases heq : usage.1 = unattributed
        · exact heq ▸ .head _
        · exact .tail _ (mem_map_of_mem (mem_filter.mpr ⟨hu, decide_eq_true heq⟩))
      · exact mem_map_of_mem hu
    simpa [sharesOf, entryOf] using hk

lemma shares_perm (h : Usages usages) (hpr : usages'.Perm usages)
    (hle : ∀ total ∈ period.totalUsage, attributed usages ≤ total) :
    shares period usages' status = shares period usages status := by
  have ha : ∀ {l l' : List Usage}, l'.Perm l → attributed l' = attributed l := fun hp => (hp.map Prod.snd).sum_eq
  have ho : (others usages').Perm (others usages) := hpr.filter _
  have hs : ∀ total, (settled total usages').Perm (settled total usages) := by
    intro total
    rw [settled, settled, settledUsage_unattributed h.distinct, ha hpr,
      settledUsage_unattributed ((hpr.map _).nodup_iff.mpr h.distinct), ha ho]
    split_ifs
    · exact ho.cons _
    · exact hpr
  unfold shares
  cases htotal : period.totalUsage with
  | none => rfl
  | some total =>
    have hsr := sortOn_eq_of_perm (hs total).symm (h.settled (hle total htotal)).distinct
    simp [sharesOf, hsr, hpr.isEmpty_eq]

theorem compute_shares_apportions (exact : ℚ → Bool) (period : ResourcePeriod) (status : Status)
    (h : Usages usages) (hle : ∀ total ∈ period.totalUsage, attributed usages ≤ total)
    (hexact : ∀ value ∈ sums period usages, exact value) :
    ∃ shares, computeShares exact period usages status = .ok shares ∧ Revision shares ∧
      validateShares shares = .ok shares ∧
      (∀ total ∈ period.totalUsage, 0 < total → usages ≠ [] → Follows total usages shares) ∧
      ∀ usages', usages'.Perm usages → ∀ shares', computeShares exact period usages' status = .ok shares' →
        shares' = shares := by
  have hr := revision_shares h hle status
  refine ⟨shares period usages status, ?_, hr, hr.validate, ?_, ?_⟩
  · rw [computeShares_eq h hle, if_pos (all_eq_true.mpr hexact)]
  · intro total htotal hpos hne
    have hs : shares period usages status = sharesOf total status (settled total usages) := by
      simp [shares, Option.mem_def.mp htotal, hpos.ne', hne]
    rw [hs]
    exact follows_sharesOf h hpos (hle total htotal)
  · intro usages' hp shares' hok
    have h' : Usages usages' := ⟨fun u hu => h.valid u (hp.subset hu), fun u hu => h.nonneg u (hp.subset hu),
      (hp.map _).nodup_iff.mpr h.distinct⟩
    have hle' : ∀ total ∈ period.totalUsage, attributed usages' ≤ total :=
      fun total htotal => (hp.map Prod.snd).sum_eq.trans_le (hle total htotal)
    rw [computeShares_eq h' hle', shares_perm h hp hle] at hok
    split_ifs at hok
    exact (Except.ok.inj hok).symm

def known (total : ℕ) : ResourcePeriod := ⟨some total, fun _ h => Option.some.inj h ▸ total.cast_nonneg⟩

def twoTenants (a b : ℚ) : List Usage := [(toLex ("a", ""), a), (toLex ("b", ""), b)]

lemma usages_twoTenants (ha : 0 ≤ a) (hb : 0 ≤ b) : Usages (twoTenants a b) := by
  have hv : validParticipant (toLex ("a", "")) ∧ validParticipant (toLex ("b", "")) := by decide
  exact ⟨by simpa [twoTenants] using hv, by simp [twoTenants, ha, hb], by simp [twoTenants]⟩

theorem third_each_apportioned : ∃ shares,
    computeShares (fun _ => true) (known 3) (twoTenants 1 1) .measured = .ok shares ∧
      Follows 3 (twoTenants 1 1) shares := by
  obtain ⟨shares, hok, -, -, hf, -⟩ := compute_shares_apportions (fun _ => true) (known 3) .measured
    (usages_twoTenants zero_le_one zero_le_one) (by norm_num [known, twoTenants, attributed]) (fun _ _ => rfl)
  exact ⟨shares, hok, hf 3 rfl (by norm_num) (by simp [twoTenants])⟩

theorem inexact_sum_refused : Usages (twoTenants (10 ^ 200) 1) ∧ attributed (twoTenants (10 ^ 200) 1) ≤ 10 ^ 201 ∧
    ∀ exact : ℚ → Bool, exact (10 ^ 200 + 1) = false →
      computeShares exact (known (10 ^ 201)) (twoTenants (10 ^ 200) 1) .measured = .error .inexact := by
  have hu : Usages (twoTenants (10 ^ 200) 1) := usages_twoTenants (by positivity) zero_le_one
  have hle : attributed (twoTenants (10 ^ 200) 1) ≤ 10 ^ 201 := by norm_num [twoTenants, attributed]
  refine ⟨hu, hle, fun exact he => ?_⟩
  have hk : ∀ total ∈ (known (10 ^ 201)).totalUsage, attributed (twoTenants (10 ^ 200) 1) ≤ total := by
    rintro _ ⟨rfl⟩
    exact_mod_cast hle
  rw [computeShares_eq hu hk, if_neg]
  simp [sums, partialSums, twoTenants, he]

end

end LeafWeb.CostMeter
