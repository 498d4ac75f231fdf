import LeafWeb.Broker.Amounts

/-! The spend cap and the daily limit of one tenant. `NOW()` is the start of each transaction, so it may be
earlier than that of a transaction serialised before. -/

namespace LeafWeb.Broker

open Lib Transition Table Nat AdmissionRow Replaces Option List

/-- The tables, the keys whose lease an `acquired` decision of the tenant has since left out of
its sums as expired, and the keys whose lease came with an `acquired` decision. -/
structure World where
  db : Db
  (overdue granted : List String)

def World.empty : World := ⟨.empty, [], []⟩

def expiredKeys (db : Db) (tenantId : String) (now : ℤ) : List String :=
  (db.admissions.rows.filter fun a =>
    a.tenantId = tenantId && a.state.isLeased && !a.state.leasedAfter now).map (·.eventKey)

def World.next (w : World) (db' : Db) : Record → World
  | (.admitRun r _ now, .ok (.admitted d)) =>
    match d with
    | .acquired .. =>
      ⟨db', (w.overdue ++ expiredKeys w.db r.tenantId now).filter (· ≠ r.key), r.key :: w.granted⟩
    | .spendQuota .. | .dailyQuota .. =>
      ⟨db', w.overdue.filter (· ≠ r.key), w.granted.filter (· ≠ r.key)⟩
    | _ => ⟨db', w.overdue, w.granted⟩
  | _ => ⟨db', w.overdue, w.granted⟩

def World.step (w : World) (e : Event) : Except BrokerError Answer × World :=
  ((Broker.step w.db e).1, w.next (Broker.step w.db e).2 (e, (Broker.step w.db e).1))

section

variable (tenant : String) (cap : ℚ) (limit : ℕ)

def AdmissionRow.allowance (a : AdmissionRow) : ℚ :=
  if a.state.isExecuting then a.reservedUsd else 0

def paidWithin (db : Db) (key : String) (t : Terminal) : Bool :=
  (db.admissions.find key).all fun a =>
    a.state.isTerminal || decide (t.entry.counted ≤ a.allowance)

/-- The use the broker makes of the transactions: one cap and one limit for the tenant, starts
after an `acquired` decision, costs within the allowance. -/
def Disciplined (w : World) : Event → Prop
  | .admitRun r _ _ => r.tenantId = tenant → r.spendCap = some cap ∧ r.dailyLimit = some (limit : ℤ)
  | .mark o _ _ _ => (w.db.admissions.find o.eventKey).all fun a =>
      !o.owns a || decide (o.eventKey ∈ w.granted)
  | .stage _ _ => True
  | .settle key t actor now =>
    ∀ x ∈ terminalOf w.db (.settle key t actor now), paidWithin w.db x.1 x.2
  | .complete o t _ => paidWithin w.db (strip o.eventKey) t
  | .reconcile key _ _ _ t _ => paidWithin w.db key t

/-- No execution starts on a lease that an admission has already counted as expired. -/
def InTime (w : World) : Event → Prop
  | .mark o _ _ now => (w.db.admissions.find o.eventKey).all fun a =>
      !o.owns a || decide (o.eventKey ∉ w.overdue) || !a.state.leasedAfter now
  | _ => True

def StartsLive (db : Db) : Event → Prop
  -- The executions of live admissions are started as live ones, which the daily limit counts.
  | .mark o live _ _ => (db.admissions.find o.eventKey).all fun a =>
      !o.owns a || !a.apsLive || live
  | _ => True

/-- An operator's resolution may take an execution out of the count of the day. -/
def Unreconciled : Event → Prop
  | .reconcile .. => False
  | _ => True

instance (w : World) : (e : Event) → Decidable (Disciplined tenant cap limit w e)
  | .admitRun r _ _ => inferInstanceAs (Decidable (r.tenantId = tenant → _ ∧ _))
  | .mark .. => inferInstanceAs (Decidable (_ = true))
  | .stage .. => inferInstanceAs (Decidable True)
  | .settle .. => inferInstanceAs (Decidable (∀ x ∈ terminalOf _ _, _ = true))
  | .complete .. | .reconcile .. => inferInstanceAs (Decidable (_ = true))

instance (w : World) : (e : Event) → Decidable (InTime w e)
  | .mark .. => inferInstanceAs (Decidable (_ = true))
  | .admitRun .. | .stage .. | .settle .. | .complete .. | .reconcile .. =>
    inferInstanceAs (Decidable True)

instance (db : Db) : (e : Event) → Decidable (StartsLive db e)
  | .mark .. => inferInstanceAs (Decidable (_ = true))
  | .admitRun .. | .stage .. | .settle .. | .complete .. | .reconcile .. =>
    inferInstanceAs (Decidable True)

instance : (e : Event) → Decidable (Unreconciled e)
  | .reconcile .. => inferInstanceAs (Decidable False)
  | .admitRun .. | .mark .. | .stage .. | .settle .. | .complete .. =>
    inferInstanceAs (Decidable True)

def Orderly (w : World) (e : Event) : Prop :=
  Disciplined tenant cap limit w e ∧ InTime w e ∧ StartsLive w.db e ∧ Unreconciled e

instance (w : World) (e : Event) : Decidable (Orderly tenant cap limit w e) :=
  inferInstanceAs (Decidable (_ ∧ _ ∧ _ ∧ _))

end

def executingUsd (db : Db) (tenant : String) : ℚ :=
  db.admissions.total fun a =>
    if a.tenantId = tenant ∧ a.state.isExecuting then a.reservedUsd else 0

def AdmissionRow.day (a : AdmissionRow) : ℤ := a.createdAt / dayLength

def startedOn (db : Db) (tenant : String) (day : ℤ) : ℕ :=
  db.admissions.total fun a =>
    if a.tenantId = tenant ∧ a.apsLive ∧ a.day = day ∧ a.state.executionStartedAt.isSome then 1
    else 0

section

variable (tenant : String) (day : ℤ) (overdue granted : List String)

def reservation (a : AdmissionRow) : ℚ :=
  if a.tenantId = tenant ∧ (a.state.isExecuting ∨ a.state.isLeased ∧ a.eventKey ∉ overdue) then
    a.reservedUsd
  else 0

def liveClaim (a : AdmissionRow) : ℕ :=
  if a.tenantId = tenant ∧ a.apsLive ∧ a.day = day ∧ (a.accountedWork ∨
      a.state.isLeased ∧ a.eventKey ∉ overdue ∧ a.eventKey ∈ granted) then 1
  else 0

end

/-- What can still be spent is within the cap, and what can count for a day within the limit. -/
structure Within (tenant : String) (cap : ℚ) (limit : ℕ) (w : World) : Prop where
  consistent : Consistent w.db
  nonneg : ∀ a ∈ w.db.admissions.rows, 0 ≤ a.reservedUsd
  spend : spentUsd w.db tenant + w.db.admissions.total (reservation tenant w.overdue) ≤ cap + 1 / 10 ^ 12
  daily : ∀ day, w.db.admissions.total (liveClaim tenant day w.overdue w.granted) ≤ limit

variable {w : World} {b : AdmissionRow} {db' db : Db} {key token k k' : String} {t : Terminal} {e : Event}
  {tenant : String} {cap amount : ℚ} {limit : ℕ} {a : AdmissionRow} {o o' g g' : List String} {r : RunRequest}
  {now : ℤ} {d : Decision}

lemma reservation_nonneg {overdue : List String} (h : 0 ≤ a.reservedUsd) : 0 ≤ reservation tenant overdue a := by
  rw [reservation]
  split_ifs
  · exact h
  · exact le_rfl

lemma reservation_mono (tenant : String) (h : 0 ≤ a.reservedUsd)
    (ho : a.eventKey ∈ o → a.eventKey ∈ o') : reservation tenant o' a ≤ reservation tenant o a := by
  by_cases hw : a.tenantId = tenant ∧ (a.state.isExecuting ∨ a.state.isLeased ∧ a.eventKey ∉ o')
  · have hw' : a.tenantId = tenant ∧ (a.state.isExecuting ∨ a.state.isLeased ∧ a.eventKey ∉ o) :=
      ⟨hw.1, hw.2.imp_right fun hl => ⟨hl.1, fun hm => hl.2 (ho hm)⟩⟩
    rw [reservation, reservation, if_pos hw, if_pos hw']
  · rw [reservation, if_neg hw]
    exact reservation_nonneg h

lemma liveClaim_mono {day : ℤ} (ho : a.eventKey ∈ o → a.eventKey ∈ o') (hg : a.eventKey ∈ g' → a.eventKey ∈ g) :
    liveClaim tenant day o' g' a ≤ liveClaim tenant day o g a := by
  rw [liveClaim]
  split_ifs with hw
  · obtain ⟨ht, hl, hd, hs⟩ := hw
    have hs' : a.accountedWork ∨ a.state.isLeased ∧ a.eventKey ∉ o ∧ a.eventKey ∈ g :=
      hs.imp_right fun h => ⟨h.1, fun hm => h.2.1 (ho hm), hg h.2.2⟩
    rw [liveClaim, if_pos ⟨ht, hl, hd, hs'⟩]
  · exact zero_le _

lemma le_of_overCap (h : overCap (some cap) amount = none) : amount ≤ cap + 1 / 10 ^ 12 := by
  rw [overCap, filter_some] at h
  split_ifs at h with hlt
  simpa using hlt

structure LeaseRow (r : RunRequest) (now : ℤ) (reserved : ℚ) (b : AdmissionRow) : Prop where
  key : b.eventKey = r.key
  tenant : b.tenantId = r.tenantId
  state : b.state = .leased (r.expiry now)
  live : b.apsLive = r.apsLive
  reserved : b.reservedUsd = reserved
  created : b.createdAt = now
  accounted : b.accountedWork = false

lemma effect_published (hc : Consistent db) (he : Effect db (.admitRun r token now) (.ok (.admitted d)) db') :
    (db' = db ∧ d.leaseToken = none) ∨
    ∃ reclaim b, d = (quota db r token now reclaim).1 ∧ db'.ledger = db.ledger ∧
      LeaseRow r now (quota db r token now reclaim).2 b ∧
      db.admissions.Replaces r.key b db'.admissions := by
  cases he with
  | idle ha => simp at ha
  | duplicated hf hd => exact .inl ⟨rfl, duplicate_leaseToken hd⟩
  | leased hk hi =>
    refine .inr ⟨false, r.row token now (quota db r token now false).2, rfl, rfl, ?_, insert hi⟩
    exact ⟨rfl, rfl, rfl, rfl, rfl, rfl, rfl⟩
  | reclaimed hf hd =>
    obtain ⟨ht, -, expires, hs, -⟩ := duplicate_none hd
    have hag := hc r.key
    rw [Db.cell, hf] at hag
    obtain ⟨-, -, -, hw⟩ := agree_of_leased hag (by rw [hs]; rfl)
    have hk := find_key hf
    refine .inr ⟨true, _, rfl, rfl, ?_, modify hf _ (reclaim_eventKey _ _ _ _)⟩
    exact ⟨hk, ht, rfl, rfl, rfl, rfl, hw⟩
  | finished htr => cases htr

lemma mem_filter_key {l : List String} (hk : k ≠ k') : k ∈ l.filter (· ≠ k') ↔ k ∈ l := by
  simp [hk]

lemma mem_expiredKeys {tenantId : String} (ha : a ∈ db.admissions.rows)
    (ht : a.tenantId = tenantId) (hl : a.state.isLeased)
    (hn : a.eventKey ∉ expiredKeys db tenantId now) : a.state.leasedAfter now := by
  by_contra hc
  apply hn
  refine mem_map_of_mem (mem_filter.mpr ⟨ha, ?_⟩)
  rw [Bool.not_eq_true] at hc
  simp [ht, hl, hc]

abbrev World.late (w : World) (r : RunRequest) (now : ℤ) : List String :=
  (w.overdue ++ expiredKeys w.db r.tenantId now).filter (· ≠ r.key)

lemma mem_late (hk : k ≠ r.key) : k ∈ w.late r now ↔ k ∈ w.overdue ∨ k ∈ expiredKeys w.db r.tenantId now := by
  rw [mem_filter_key hk, mem_append]

lemma startOfDay_le (h : a.day = now / dayLength) : startOfDay now ≤ a.createdAt := by
  rw [startOfDay, ← h, day]
  exact Int.ediv_mul_le _ (by decide)

lemma acquired_rest (now : ℤ) (ht : r.tenantId = tenant) :
    w.db.admissions.rest (liveClaim tenant (now / dayLength) (w.late r now) (r.key :: w.granted)) r.key ≤
      usedToday w.db tenant now := by
  refine le_trans (rest_le_rest ?_) (rest_le_total (k := r.key) fun _ _ => zero_le _)
  intro x hx hk
  rw [liveClaim]
  split_ifs with hc hu hu
  · exact le_rfl
  · refine absurd ?_ hu
    obtain ⟨hxt, hl, hd, hs⟩ := hc
    refine ⟨hxt, hl, startOfDay_le hd, hs.imp_right fun h => ?_⟩
    rw [mem_late hk, not_or] at h
    exact mem_expiredKeys hx (hxt.trans ht.symm) h.1 h.2.1.2
  · exact zero_le _
  · exact le_rfl

lemma liveClaim_le_one (tenant : String) (day : ℤ) (o g : List String) (a : AdmissionRow) :
    liveClaim tenant day o g a ≤ 1 := by
  rw [liveClaim]
  split_ifs
  · exact le_rfl
  · exact zero_le _

lemma spentUsd_modifyAdmission (db : Db) (key : String) (f : AdmissionRow → AdmissionRow)
    (hf : ∀ a, (f a).eventKey = a.eventKey) :
    spentUsd (db.modifyAdmission key f hf) tenant = spentUsd db tenant + 0 := by
  rw [add_zero]
  rfl

lemma exists_of_isLeased {s : AdmissionState} (h : s.isLeased) : ∃ expires, s = .leased expires := by
  cases s with
  | leased expires => exact ⟨expires, rfl⟩
  | executing | terminal => cases h

lemma allowance_le_reservation (ht : a.tenantId = tenant) (h : 0 ≤ a.reservedUsd) :
    a.allowance ≤ reservation tenant o a := by
  rw [allowance]
  split_ifs with hs
  · simp [reservation, ht, hs]
  · exact reservation_nonneg h

section

variable (hw : Within tenant cap limit w) (hc : Consistent db')

include hw

lemma acquired_spend {t' : Table eventKey} (ht : r.tenantId = tenant) (hb : LeaseRow r now r.estimate b)
    (hrep : w.db.admissions.Replaces r.key b t') :
    t'.total (reservation tenant (w.late r now)) ≤ reservedUsd w.db tenant now + r.estimate := by
  have he : 0 ≤ r.estimate := le_max_left _ _
  have hsl : reservation tenant (w.late r now) b ≤ r.estimate := by
    rw [reservation, hb.reserved]
    split_ifs
    · exact le_rfl
    · exact he
  have hs : ∀ x ∈ w.db.admissions.rows, 0 ≤ if x.tenantId = tenant ∧
      (x.state.isExecuting ∨ x.state.leasedAfter now) then x.reservedUsd else 0 := by
    intro x hx
    split_ifs
    · exact hw.nonneg x hx
    · exact le_rfl
  have hr := rest_le_rest (t := w.db.admissions) (k := r.key)
    (w := reservation tenant (w.late r now))
    (v := fun x => if x.tenantId = tenant ∧ (x.state.isExecuting ∨ x.state.leasedAfter now) then
      x.reservedUsd else 0) ?_
  · rw [hrep.total, reservedUsd]
    have htl := rest_le_total (k := r.key) hs
    linarith
  · intro x hx hk
    by_cases hc : x.tenantId = tenant ∧
        (x.state.isExecuting ∨ x.state.isLeased ∧ x.eventKey ∉ w.late r now)
    · rw [reservation, if_pos hc, if_pos]
      refine ⟨hc.1, hc.2.imp_right fun hl => ?_⟩
      rw [mem_late hk, not_or] at hl
      exact mem_expiredKeys hx (hc.1.trans ht.symm) hl.1 hl.2.2
    · rw [reservation, if_neg hc]
      exact hs x hx

include hc

lemma within_denied (hl : db'.ledger = w.db.ledger) (hb : LeaseRow r now 0 b)
    (hr : w.db.admissions.Replaces r.key b db'.admissions) :
    Within tenant cap limit ⟨db', w.overdue.filter (· ≠ r.key), w.granted.filter (· ≠ r.key)⟩ := by
  refine ⟨hc, ?_, ?_, ?_⟩
  · intro x hx
    obtain rfl | hx := hr.mem x hx
    · exact hb.reserved.ge
    · exact hw.nonneg x hx
  · have hz : reservation tenant (w.overdue.filter (· ≠ r.key)) b = 0 := by
      simp [reservation, hb.reserved]
    have hle := hr.total_le_of_zero hz (fun x hx => reservation_nonneg (hw.nonneg x hx))
      (fun x hx hk => reservation_mono tenant (hw.nonneg x hx) (mem_filter_key hk).mpr)
    have hs : spentUsd db' tenant = spentUsd w.db tenant := by
      rw [spentUsd, spentUsd, hl]
    have hold := hw.spend
    linarith
  · intro day
    have hz : liveClaim tenant day (w.overdue.filter (· ≠ r.key)) (w.granted.filter (· ≠ r.key)) b = 0 := by
      simp [liveClaim, hb.accounted, hb.key]
    refine le_trans (hr.total_le_of_zero hz (fun _ _ => zero_le _) ?_) (hw.daily day)
    intro x hx hk
    exact liveClaim_mono (mem_filter_key hk).mpr (mem_filter_key hk).mp

lemma within_acquired (hld : db'.ledger = w.db.ledger) (hb : LeaseRow r now r.estimate b)
    (hrep : w.db.admissions.Replaces r.key b db'.admissions)
    (hcap : r.tenantId = tenant → spentUsd w.db tenant + reservedUsd w.db tenant now + r.estimate ≤
      cap + 1 / 10 ^ 12)
    (hlm : r.tenantId = tenant → r.apsLive → usedToday w.db tenant now < limit) :
    Within tenant cap limit ⟨db', w.late r now, r.key :: w.granted⟩ := by
  refine ⟨hc, ?_, ?_, ?_⟩
  · intro x hx
    obtain rfl | hx := hrep.mem x hx
    · rw [hb.reserved]
      exact le_max_left _ _
    · exact hw.nonneg x hx
  · have hs : spentUsd db' tenant = spentUsd w.db tenant := by
      rw [spentUsd, spentUsd, hld]
    by_cases ht : r.tenantId = tenant
    · have hsum := acquired_spend hw ht hb hrep
      have hmax := hcap ht
      linarith
    have hz : reservation tenant (w.late r now) b = 0 := by simp [reservation, hb.tenant, ht]
    have hle := hrep.total_le_of_zero hz (fun x hx => reservation_nonneg (hw.nonneg x hx))
      (fun x hx hk => reservation_mono tenant (hw.nonneg x hx) fun hm => (mem_late hk).mpr (.inl hm))
    have hold := hw.spend
    linarith
  · intro day
    dsimp only
    by_cases hday : r.tenantId = tenant ∧ r.apsLive ∧ now / dayLength = day
    · obtain ⟨ht, hl, rfl⟩ := hday
      rw [hrep.total]
      have hsl := liveClaim_le_one tenant (now / dayLength) (w.late r now) (r.key :: w.granted) b
      have hr := acquired_rest (w := w) now ht
      have hlt := hlm ht hl
      omega
    · have hz : liveClaim tenant day (w.late r now) (r.key :: w.granted) b = 0 := by
        rw [liveClaim, if_neg]
        rintro ⟨ht, hl, hd, -⟩
        rw [hb.tenant] at ht
        rw [hb.live] at hl
        rw [AdmissionRow.day, hb.created] at hd
        exact hday ⟨ht, hl, hd⟩
      refine le_trans (hrep.total_le_of_zero hz (fun _ _ => zero_le _) ?_) (hw.daily day)
      intro x hx hk
      refine liveClaim_mono (fun hm => (mem_late hk).mpr (.inl hm)) fun hm => ?_
      exact (mem_cons.mp hm).resolve_left hk

lemma within_admitted (hr : r.tenantId = tenant → r.spendCap = some cap ∧ r.dailyLimit = some (limit : ℤ))
    (he : Effect w.db (.admitRun r token now) (.ok (.admitted d)) db') :
    Within tenant cap limit (w.next db' (.admitRun r token now, .ok (.admitted d))) := by
  obtain ⟨rfl, hd⟩ | ⟨reclaim, b, rfl, hld, hb, hrep⟩ := effect_published hw.consistent he
  · cases d <;> first | exact hw | cases hd
  · obtain ⟨_, _, _, _, hq⟩ | ⟨_, _, hq⟩ | ⟨hq, hcap, hlm⟩ :=
      quota_cases w.db r token now reclaim
    · rw [hq] at hb ⊢
      exact within_denied hw hc hld hb hrep
    · rw [hq] at hb ⊢
      exact within_denied hw hc hld hb hrep
    · rw [hq] at hb ⊢
      refine within_acquired hw hc hld hb hrep ?_ ?_
      · rintro rfl
        rw [(hr rfl).1] at hcap
        exact le_of_overCap hcap
      rintro rfl hl
      rw [overLimit, if_pos hl, (hr rfl).2, filter_some] at hlm
      split_ifs at hlm with hle
      simpa using hle

lemma within_row (cost : ℚ) (hf : w.db.admissions.find key = some a)
    (hr : w.db.admissions.Replaces key b db'.admissions)
    (hs : spentUsd db' tenant = spentUsd w.db tenant + cost) (hn : 0 ≤ b.reservedUsd)
    (hres : reservation tenant w.overdue b + cost ≤ reservation tenant w.overdue a)
    (hcl : ∀ day, liveClaim tenant day w.overdue w.granted b ≤ liveClaim tenant day w.overdue w.granted a) :
    Within tenant cap limit ⟨db', w.overdue, w.granted⟩ := by
  refine ⟨hc, ?_, ?_, ?_⟩
  · intro x hx
    obtain rfl | hx := hr.mem x hx
    · exact hn
    · exact hw.nonneg x hx
  · have hold := hw.spend
    rw [total_of_find _ hf] at hold
    rw [hr.total, hs]
    linarith
  · intro day
    have hold := hw.daily day
    rw [total_of_find _ hf] at hold
    rw [hr.total]
    exact (add_le_add_left (hcl day) _).trans hold

lemma within_started {live : Bool} {o : Owner}
    (ha : db'.admissions = (w.db.modifyAdmission o.eventKey (start now live) (start_eventKey now live)).admissions)
    (hl : db'.ledger = w.db.ledger) (hf : w.db.admissions.find o.eventKey = some a) (hs : a.state.isLeased)
    (hg : o.eventKey ∈ w.granted) (hin : o.eventKey ∉ w.overdue) :
    Within tenant cap limit ⟨db', w.overdue, w.granted⟩ := by
  have hm := mem_of_find hf
  have hk := find_key hf
  have hr : w.db.admissions.Replaces o.eventKey (a.start now live) db'.admissions := by
    rw [ha]
    exact modify hf _ (start_eventKey now live)
  refine within_row hw hc 0 hf hr (by rw [spentUsd, spentUsd, hl, add_zero])
    (hw.nonneg a hm) ?_ ?_
  · simp [reservation, start, AdmissionState.isExecuting, hs, hk, hin]
  intro day
  rw [liveClaim]
  split_ifs with hcl
  · have hcan : a.accountedWork ∨ a.state.isLeased ∧ a.eventKey ∉ w.overdue ∧
        a.eventKey ∈ w.granted := .inr ⟨hs, hk ▸ hin, hk ▸ hg⟩
    rw [liveClaim, if_pos ⟨hcl.1, hcl.2.1, hcl.2.2.1, hcan⟩]
  · exact zero_le _

lemma within_finished (hf : Finish w.db key t none db')
    (hcs : ∀ a, w.db.admissions.find key = some a → a.state.isTerminal = false → t.entry.counted ≤ a.allowance) :
    Within tenant cap limit ⟨db', w.overdue, w.granted⟩ := by
  cases hf with
  | @mk a entry ledger reason audit now hfn ho htn hcn hi hins =>
    have hm := mem_of_find hfn
    have hp := hcs a hfn ho
    refine within_row hw hc (if entry.tenantId = tenant then entry.counted else 0) hfn
      (modify hfn _ (finish_eventKey t none now)) ?_ le_rfl ?_ ?_
    · exact total_insert _ hins
    · have hz : reservation tenant w.overdue (a.finish t none now) = 0 := by
        simp [reservation, finish, AdmissionState.isLeased]
      rw [hz, zero_add]
      split_ifs with ht
      · rw [hcn]
        exact hp.trans (allowance_le_reservation (htn.trans ht) (hw.nonneg a hm))
      · exact reservation_nonneg (hw.nonneg a hm)
    · intro day
      rw [liveClaim]
      split_ifs with hcl
      · obtain ⟨ht, hl, hd, hst | hst⟩ := hcl
        · have hcl' : a.tenantId = tenant ∧ a.apsLive ∧ a.day = day ∧
              (a.accountedWork ∨ a.state.isLeased ∧ a.eventKey ∉ w.overdue ∧
                a.eventKey ∈ w.granted) := ⟨ht, hl, hd, .inl hst⟩
          rw [liveClaim, if_pos hcl']
        · cases hst.1
      · exact zero_le _

end

lemma counted_le_allowance (hd : Disciplined tenant cap limit w e)
    (ht : terminalOf w.db e = some (key, t)) (hf : w.db.admissions.find key = some a)
    (ho : a.state.isTerminal = false) : t.entry.counted ≤ a.allowance := by
  have hp : paidWithin w.db key t := by
    cases e with
    | admitRun | mark | stage => cases ht
    | settle =>
      exact hd (key, t) ht
    | complete | reconcile =>
      cases ht
      exact hd
  simpa [paidWithin, hf, ho] using hp

lemma next_of_not_admitted {r : Except BrokerError Answer}
    (h : ∀ d, r ≠ .ok (.admitted d)) : w.next db' (e, r) = ⟨db', w.overdue, w.granted⟩ := by
  unfold World.next
  split
  next hx =>
    cases hx
    exact absurd rfl (h _)
  · rfl

lemma within_step (e : Event) (hw : Within tenant cap limit w)
    (hd : Disciplined tenant cap limit w e) (hin : InTime w e) (hu : Unreconciled e) :
    Within tenant cap limit (w.step e).2 := by
  have he := step_effect hw.consistent e
  have hc := step_consistent hw.consistent e
  rw [World.step]
  dsimp only
  generalize (Broker.step w.db e).1 = r, (Broker.step w.db e).2 = db' at he hc ⊢
  cases he with
  | raised | refused =>
    rw [next_of_not_admitted (by simp)]
    exact hw
  | idle ha =>
    rw [next_of_not_admitted (by rintro d ⟨⟩; simp at ha)]
    exact hw
  | duplicated hfn hdup => exact within_admitted hw hc hd (.duplicated hfn hdup)
  | leased hk hi => exact within_admitted hw hc hd (.leased hk hi)
  | reclaimed hfn hdup => exact within_admitted hw hc hd (.reclaimed hfn hdup)
  | lapsed hfn hs =>
    have hn := hw.nonneg _ (mem_of_find hfn)
    obtain ⟨expires, hst⟩ := exists_of_isLeased hs
    refine within_row hw hc 0 hfn (modify hfn _ (lapse_eventKey _))
      (spentUsd_modifyAdmission _ _ _ _) hn ?_ ?_
    · simp [reservation, lapse, AdmissionState.isExecuting, AdmissionState.isLeased, hst]
    · simp [liveClaim, lapse, day, hst, AdmissionState.isLeased]
  | @started o live max now a slots hfn ho hs hsl =>
    rw [Disciplined, hfn] at hd
    rw [InTime, hfn] at hin
    simp only [all_some, ho, hs, Bool.not_true, Bool.false_or, Bool.or_false, decide_eq_true_eq] at hd hin
    exact within_started hw hc rfl rfl hfn (isLeased_of_leasedAfter hs) hd hin
  | staged hfn =>
    have hn := hw.nonneg _ (mem_of_find hfn)
    refine within_row hw hc 0 hfn (modify hfn _ (stage_eventKey _))
      (spentUsd_modifyAdmission _ _ _ _) hn ?_ fun _ => le_rfl
    rw [add_zero]
    rfl
  | finished ht hacc hf ha =>
    rw [next_of_not_admitted (by rintro d ⟨⟩; simp at ha)]
    obtain rfl | ⟨_, _, _, _, _, _, rfl⟩ := hacc
    · exact within_finished hw hc hf fun a hfn hop => counted_le_allowance hd ht hfn hop
    · exact hu.elim

lemma next_db (w : World) (db' : Db) (x : Record) : (w.next db' x).db = db' := by
  unfold World.next
  split
  · split <;> rfl
  · rfl

lemma world_step_db (w : World) (e : Event) : (w.step e).2.db = (Broker.step w.db e).2 := next_db w _ _

def Accounted (db : Db) : Prop :=
  ∀ a ∈ db.admissions.rows, a.apsLive → a.state.executionStartedAt.isSome → a.accountedWork

lemma Accounted.replace (h : Accounted db) (hr : db.admissions.Replaces key b db'.admissions)
    (hb : b.apsLive → b.state.executionStartedAt.isSome → b.accountedWork) : Accounted db' := by
  intro a ha
  obtain rfl | ha := hr.mem a ha
  · exact hb
  · exact h a ha

lemma Effect.accounted {answer : Except BrokerError Answer} (he : Effect db e answer db') (h : Accounted db)
    (hlv : StartsLive db e) (hu : Unreconciled e) : Accounted db' := by
  cases he with
  | raised | idle | duplicated | refused => exact h
  | leased hk hi =>
    refine h.replace (insert hi) fun _ hs => ?_
    cases hs
  | reclaimed hfn =>
    refine h.replace (modify hfn _ (reclaim_eventKey _ _ _ _)) fun _ hs => ?_
    cases hs
  | lapsed hfn =>
    refine h.replace (modify hfn _ (lapse_eventKey _)) fun _ hs => ?_
    cases hs
  | @started o live max now a slots hfn ho =>
    rw [StartsLive, hfn] at hlv
    refine h.replace (modify hfn _ (start_eventKey now live)) fun hl _ => ?_
    have hl' : a.apsLive = true := hl
    simpa [start, ho, hl'] using hlv
  | staged hfn =>
    have ha := h _ (mem_of_find hfn)
    exact h.replace (modify hfn _ (stage_eventKey _)) ha
  | finished ht hacc hf =>
    obtain rfl | ⟨_, _, _, _, _, _, rfl⟩ := hacc
    · cases hf with
      | mk hfn hop =>
        have ha := h _ (mem_of_find hfn)
        exact h.replace (modify hfn _ (finish_eventKey _ _ _)) ha
    · exact hu.elim

variable {es : List Event}

lemma within_run (hcap : 0 ≤ cap) (hr : Along World.step (Orderly tenant cap limit) .empty es) :
    Within tenant cap limit (after World.step .empty es) ∧
      Accounted (after World.step .empty es).db := by
  refine invariant_along (I := fun w => Within tenant cap limit w ∧ Accounted w.db) ?_ ?_ es hr
  · refine ⟨⟨fun _ => .absent, (fun _ ha => nomatch ha), ?_, fun _ => zero_le _⟩, fun _ ha => nomatch ha⟩
    change (0 : ℚ) + 0 ≤ _
    linarith
  rintro w e ⟨hw, ha⟩ ⟨hd, hin, hl, hu⟩
  refine ⟨within_step e hw hd hin hu, ?_⟩
  rw [world_step_db]
  exact (step_effect hw.consistent e).accounted ha hl hu

lemma executingUsd_le (hw : Within tenant cap limit w) :
    executingUsd w.db tenant ≤ w.db.admissions.total (reservation tenant w.overdue) := by
  refine total_le_total fun a ha => ?_
  split_ifs with h
  · rw [reservation, if_pos ⟨h.1, .inl h.2⟩]
  · exact reservation_nonneg (hw.nonneg a ha)

lemma startedOn_le (h : Accounted w.db) (day : ℤ) :
    startedOn w.db tenant day ≤ w.db.admissions.total (liveClaim tenant day w.overdue w.granted) := by
  refine total_le_total fun a ha => ?_
  split_ifs with hs
  · obtain ⟨ht, hl, hd, hs⟩ := hs
    rw [liveClaim, if_pos ⟨ht, hl, hd, .inl (h a ha hl hs)⟩]
  · exact zero_le _

lemma spent_executing_mem {s : AddSubgroup ℚ} (h : Amounts s db) :
    spentUsd db tenant + executingUsd db tenant ∈ s := by
  refine s.add_mem (total_mem fun l hl => ?_) (total_mem fun a ha => ?_)
  · split_ifs
    · exact h.paid l hl
    · exact s.zero_mem
  · split_ifs
    · exact h.reserved a ha
    · exact s.zero_mem

def fullRequest (key : String) : RunRequest := ⟨key, "tenant", true, 10, some 10, some 1, sampleFingerprint, 30⟩

def fullOwner (key token : String) : Owner := ⟨key, "tenant", token⟩

def paidTerminal : Terminal :=
  ⟨⟨33, "tenant", none, "run", "/v1", true, some 60, some 7, "ok", none⟩, sampleResult, 200⟩

def inTimeEvents : List Event :=
  [.admitRun (fullRequest "a") "token-a" 0, .mark (fullOwner "a" "token-a") true 2 29000000,
   .admitRun (fullRequest "b") "token-b" 31000000,
   .complete (fullOwner "a" "token-a") paidTerminal 33000000]

def overrunEvents : List Event :=
  [.admitRun (fullRequest "a") "token-a" 0, .admitRun (fullRequest "b") "token-b" 31000000,
   .mark (fullOwner "a" "token-a") true 2 29000000, .mark (fullOwner "b" "token-b") true 2 32000000]

end LeafWeb.Broker
