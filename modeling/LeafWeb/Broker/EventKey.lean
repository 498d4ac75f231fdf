import LeafWeb.Broker.Effects

namespace LeafWeb.Broker

open Lib Table List AdmissionRow SlotRow

abbrev Record := Event × Except BrokerError Answer

def Decision.leaseToken : Decision → Option String
  | .spendQuota _ _ _ _ token => some token
  | .dailyQuota _ _ token => some token
  | .acquired token _ => some token
  | _ => none

def startOf (k : String) : Record → Bool
  | (.mark o _ _ _, .ok (.started true)) => o.eventKey = k
  | _ => false

def issued (k : String) : Record → Option String
  | (.admitRun r _ _, .ok (.admitted d)) => if r.key = k then d.leaseToken else none
  | _ => none

def latestToken (k : String) (h : List Record) : Option String := (h.filterMap (issued k)).getLast?

def StartedLive (k : String) (h : List Record) : Prop :=
  ∃ o max now, (Event.mark o true max now, Except.ok (Answer.started true)) ∈ h ∧ o.eventKey = k

inductive CellStep (k : String) : Record → Cell → Cell → Prop
  | other {x : Record} {c : Cell} (hs : startOf k x = false) (hi : issued k x = none) :
      CellStep k x c c
  | leased {x : Record} {a : AdmissionRow} {l : Option LedgerRow} {s : Option SlotRow}
      (hk : k ≠ "") (hs : startOf k x = false) (hi : issued k x = some a.leaseToken)
      (ha : a.state.isLeased) (hn : a.terminalIntent = none) (hw : a.accountedWork = false) :
      CellStep k x ⟨none, l, s⟩ ⟨some a, l, s⟩
  | renewed {x : Record} {a b : AdmissionRow} {l : Option LedgerRow} {s : Option SlotRow}
      (hs : startOf k x = false) (hi : (issued k x).getD a.leaseToken = b.leaseToken)
      (ha : a.state.isLeased) (hb : b.state.isLeased) (hn : b.terminalIntent = a.terminalIntent)
      (hw : b.accountedWork = a.accountedWork) :
      CellStep k x ⟨some a, l, s⟩ ⟨some b, l, s⟩
  | started {o : Owner} {live : Bool} {max now : ℤ} {a : AdmissionRow} {l : Option LedgerRow}
      {s s' : Option SlotRow} (hk : o.eventKey = k) (ho : o.leaseToken = a.leaseToken)
      (ha : a.state.isLeased)
      (hslot : s' = if live then some ⟨k, o.tenantId, .held⟩ else s) :
      CellStep k (.mark o live max now, .ok (.started true)) ⟨some a, l, s⟩ ⟨some (a.start now live), l, s'⟩
  | staged {x : Record} {a : AdmissionRow} {i : SuccessIntent} {l : Option LedgerRow}
      {s : Option SlotRow} (hs : startOf k x = false) (hi : issued k x = none)
      (ha : a.state.isExecuting) (hn : a.terminalIntent = none) :
      CellStep k x ⟨some a, l, s⟩ ⟨some (a.stage i), l, s⟩
  | finished {x : Record} {a : AdmissionRow} {t : Terminal} {accounted : Option Bool} {now : ℤ}
      {entry : LedgerEntry} {reason : String} {s : Option SlotRow}
      (hs : startOf k x = false) (hi : issued k x = none) (hopen : a.state.isTerminal = false)
      (hintent : ∀ i, a.terminalIntent = some i → t = i.terminal ∧ entry = i.ledgerEntry) :
      CellStep k x ⟨some a, none, s⟩
        ⟨some (a.finish t accounted now), some ⟨k, entry⟩, s.map (release reason)⟩

variable {a b : AdmissionRow} {r : Except BrokerError Answer} {s : AdmissionState} {k : String} {db db' : Db}

lemma quota_cases (db : Db) (r : RunRequest) (token : String) (now : ℤ) (reclaim : Bool) :
    (∃ spent reserved estimated cap,
      quota db r token now reclaim = (.spendQuota spent reserved estimated cap token, 0)) ∨
    (∃ used limit, quota db r token now reclaim = (.dailyQuota used limit token, 0)) ∨
    (quota db r token now reclaim = (.acquired token reclaim, r.estimate) ∧
      overCap r.spendCap (spentUsd db r.tenantId + reservedUsd db r.tenantId now + r.estimate) = none ∧
      overLimit r (usedToday db r.tenantId now) = none) := by
  rw [quota]
  cases hc : overCap r.spendCap (spentUsd db r.tenantId + reservedUsd db r.tenantId now + r.estimate) with
  | some cap => exact Or.inl ⟨_, _, _, _, rfl⟩
  | none =>
    cases hl : overLimit r (usedToday db r.tenantId now) with
    | some limit => exact Or.inr (Or.inl ⟨_, _, rfl⟩)
    | none => exact Or.inr (Or.inr ⟨rfl, rfl, rfl⟩)

lemma quota_leaseToken (db : Db) (r : RunRequest) (token : String) (now : ℤ) (reclaim : Bool) :
    (quota db r token now reclaim).1.leaseToken = some token := by
  obtain ⟨_, _, _, _, hq⟩ | ⟨_, _, hq⟩ | ⟨hq, -⟩ := quota_cases db r token now reclaim
  all_goals rw [hq]; rfl

variable {now : ℤ} {key : String} {e : Event} {f : AdmissionRow → AdmissionRow}
  {hf : ∀ (a : AdmissionRow), (f a).eventKey = a.eventKey}

lemma duplicate_leaseToken {d : Decision} {r : RunRequest} (h : duplicate a r now = some d) :
    d.leaseToken = none := by
  rw [duplicate] at h
  split_ifs at h
  · cases h; rfl
  · cases h; rfl
  split at h
  · cases h; rfl
  · cases h; rfl
  split_ifs at h
  cases h
  rfl

lemma duplicate_none {r : RunRequest} (h : duplicate a r now = none) :
    a.tenantId = r.tenantId ∧ a.requestFingerprint = r.requestFingerprint ∧
      ∃ expires, a.state = .leased expires ∧ expires ≤ now := by
  rw [duplicate] at h
  split_ifs at h with ht hf
  refine ⟨not_not.mp ht, not_not.mp hf, ?_⟩
  cases hs : a.state with
  | terminal | executing => rw [hs] at h; cases h
  | leased expires =>
    simp only [hs] at h
    split_ifs at h with hn
    exact ⟨expires, rfl, not_lt.mp hn⟩

lemma isLeased_of_leasedAfter (h : s.leasedAfter now) : s.isLeased := by
  cases s <;> first | rfl | cases h

lemma not_executing_of_leased (h : s.isLeased) : ¬ s.isExecuting := by
  cases s with
  | leased => simp [AdmissionState.isExecuting]
  | executing | terminal => cases h

lemma startOf_settling {t : Terminal} (h : terminalOf db e = some (key, t)) : startOf k (e, r) = false ∧
    issued k (e, r) = none := by
  cases e with
  | admitRun | mark | stage => cases h
  | settle | complete | reconcile => exact ⟨rfl, rfl⟩

lemma modifyAdmission_find (hfn : db.admissions.find key = some a) (k : String) :
    (db.modifyAdmission key f hf).admissions.find k = if k = key then some (f a) else db.admissions.find k := by
  rw [Db.modifyAdmission, find_modify]
  by_cases hk : k = key
  · rw [if_pos hk, if_pos hk, hk, hfn]
    rfl
  · rw [if_neg hk, if_neg hk]

lemma releaseSlot_find (key reason k : String) : (releaseSlot db key reason).slots.find k =
    if k = key then (db.slots.find k).map (release reason) else db.slots.find k :=
  find_modify db.slots key _ (release_eventKey reason) k

lemma modifyAdmission_cell (hfn : db.admissions.find key = some a) (k : String) :
    (db.modifyAdmission key f hf).cell k =
      if k = key then ⟨some (f a), db.ledger.find k, db.slots.find k⟩ else db.cell k := by
  rw [Db.cell, modifyAdmission_find hfn]
  by_cases hk : k = key
  · rw [if_pos hk, if_pos hk]
    rfl
  · rw [if_neg hk, if_neg hk]
    rfl

lemma effect_cell (he : Effect db e r db') (k : String) : CellStep k (e, r) (db.cell k) (db'.cell k) := by
  cases he with
  | raised => exact .other (by cases e <;> rfl) (by cases e <;> rfl)
  | idle ha =>
    refine .other ?_ ?_ <;> obtain rfl | rfl | rfl := ha <;> cases e <;> rfl
  | @duplicated r token now a d hfn hd =>
    refine .other rfl ?_
    simp [issued, duplicate_leaseToken hd]
  | @leased r token now t hkey hins =>
    have hn : db.admissions.find r.key = none := (insert_rows hins).2
    have hr : t.find k = if k = r.key then some _ else db.admissions.find k := find_insert hins k
    simp only [Db.cell, hr]
    by_cases hk : k = r.key
    · subst hk
      rw [if_pos rfl, hn]
      exact .leased hkey rfl (by simp [issued, quota_leaseToken, RunRequest.row]) rfl rfl rfl
    · rw [if_neg hk]
      exact .other rfl (by simp [issued, Ne.symm hk])
  | @reclaimed r token now a hfn hd =>
    obtain ⟨_, _, expires, hs, _⟩ := duplicate_none hd
    rw [modifyAdmission_cell hfn]
    by_cases hk : k = r.key
    · subst hk
      rw [if_pos rfl, Db.cell, hfn]
      refine .renewed rfl ?_ (by rw [hs]; rfl) rfl rfl rfl
      simp [issued, quota_leaseToken, reclaim]
    · rw [if_neg hk]
      exact .other rfl (by simp [issued, Ne.symm hk])
  | refused => exact .other rfl rfl
  | @lapsed o live max now a hfn hs =>
    rw [modifyAdmission_cell hfn]
    by_cases hk : k = o.eventKey
    · subst hk
      rw [if_pos rfl, Db.cell, hfn]
      exact .renewed rfl rfl hs rfl rfl rfl
    · rw [if_neg hk]
      exact .other rfl rfl
  | @started o live max now a slots hfn ho hs hsl =>
    rw [Owner.owns, Bool.and_eq_true, decide_eq_true_eq, decide_eq_true_eq] at ho
    have hst : slots.find k = if live ∧ k = o.eventKey then some ⟨k, o.tenantId, .held⟩ else db.slots.find k := by
      cases live with
      | true =>
        rw [find_insert hsl.1]
        by_cases hk : k = o.eventKey <;> simp [hk]
      | false => rw [show slots = db.slots from hsl]; simp
    simp only [Db.cell, modifyAdmission_find hfn, hst]
    by_cases hk : k = o.eventKey
    · subst hk
      simp only [hfn, and_true]
      exact .started rfl ho.2.symm (isLeased_of_leasedAfter hs) rfl
    · simp only [hk, and_false]
      exact .other (by simp [startOf, Ne.symm hk]) rfl
  | @staged o i a hfn hs hn =>
    rw [modifyAdmission_cell hfn]
    by_cases hk : k = o.eventKey
    · subst hk
      rw [if_pos rfl, Db.cell, hfn]
      exact .staged rfl rfl hs hn
    · rw [if_neg hk]
      exact .other rfl rfl
  | @finished _ key t accounted answer _ ht hacc hf ha =>
    obtain ⟨hs, hi⟩ := startOf_settling (k := k) (r := .ok answer) ht
    cases hf with
    | @mk a entry ledger reason audit now hfn hop htn hc hin hins =>
      have hn : db.ledger.find key = none := (insert_rows hins).2
      have hl : ledger.find k = if k = key then some _ else db.ledger.find k := find_insert hins k
      simp only [Db.cell, modifyAdmission_find hfn, hl, releaseSlot_find]
      by_cases hk : k = key
      · subst hk
        simp only [hfn, hn]
        exact .finished hs hi hop hin
      · simp only [hk]
        exact .other hs hi

variable {x : Record} {c c' : Cell} {h : List Record} {l : Option LedgerRow}

lemma SlotRow.release_state_ne (reason : String) (s : SlotRow) : (s.release reason).state ≠ .held := by
  rw [release]
  split_ifs with hs
  · simp
  · exact hs

lemma agree_of_leased {s : Option SlotRow} (h : Agree ⟨some a, l, s⟩) (ha : a.state.isLeased) :
    l = none ∧ s = none ∧ a.terminalIntent = none ∧ a.accountedWork = false := by
  have hnt := isTerminal_of_isLeased ha
  cases h with
  | leased _ hi hw => exact ⟨rfl, rfl, hi, hw⟩
  | executing hs => exact absurd hs (not_executing_of_leased ha)
  | terminal hs => rw [hs] at hnt; cases hnt

lemma agree_of_executing {s : Option SlotRow} (h : Agree ⟨some a, l, s⟩) (ha : a.state.isExecuting) :
    l = none ∧ s.map (·.state) = if a.accountedWork then some .held else none := by
  have hnt := isTerminal_of_isExecuting ha
  cases h with
  | leased hs => exact absurd ha (not_executing_of_leased hs)
  | executing _ hsl => exact ⟨rfl, hsl⟩
  | terminal hs => rw [hs] at hnt; cases hnt

lemma agree_step (hst : CellStep k x c c') (hc : Agree c) : Agree c' := by
  cases hst with
  | other => exact hc
  | leased _ _ _ ha hn hw =>
    cases hc
    exact .leased ha hn hw
  | renewed _ _ ha hb hn hw =>
    obtain ⟨rfl, rfl, hi, hw'⟩ := agree_of_leased hc ha
    exact .leased hb (hn.trans hi) (hw.trans hw')
  | @started o live max now a l s s' hk ho ha hsl =>
    obtain ⟨rfl, rfl, hi, hw⟩ := agree_of_leased hc ha
    refine .executing rfl ?_
    cases live <;> simp [hsl, start]
  | staged _ _ ha hn =>
    obtain ⟨rfl, hsl⟩ := agree_of_executing hc ha
    exact .executing ha hsl
  | @finished _ a t accounted now entry reason s hs hi hop hin =>
    refine .terminal rfl ?_ ?_
    · cases s with
      | none => simp
      | some slot => simp [release_state_ne]
    · intro i hi'
      obtain ⟨rfl, rfl⟩ := hin i hi'
      exact ⟨rfl, _, _, rfl⟩

lemma starts_concat (hs : startOf k x = false) : (h ++ [x]).filter (startOf k) = h.filter (startOf k) := by
  simp [hs]

lemma latestToken_concat (k : String) (h : List Record) (x : Record) :
    latestToken k (h ++ [x]) = (issued k x).or (latestToken k h) := by
  rw [latestToken, latestToken, filterMap_append]
  cases hi : issued k x <;> simp [hi]

lemma startedLive_concat (hs : startOf k x = false) : StartedLive k (h ++ [x]) ↔ StartedLive k h := by
  constructor
  · rintro ⟨o, max, now, hm, hk⟩
    obtain hm | hm := mem_append.mp hm
    · exact ⟨o, max, now, hm, hk⟩
    · rw [← mem_singleton.mp hm] at hs
      simp [startOf, hk] at hs
  · rintro ⟨o, max, now, hm, hk⟩
    exact ⟨o, max, now, mem_append_left _ hm, hk⟩

lemma not_startedLive (hs : h.filter (startOf k) = []) : ¬ StartedLive k h := by
  rintro ⟨o, max, now, hm, hk⟩
  have hmem : (Event.mark o true max now, Except.ok (Answer.started true)) ∈
      h.filter (startOf k) := mem_filter.mpr ⟨hm, by simp [startOf, hk]⟩
  rw [hs] at hmem
  cases hmem

structure Chronicle (k : String) (h : List Record) (c : Cell) : Prop where
  agree : Agree c
  named : k = "" → c.admission = none
  starts : (h.filter (startOf k)).length ≤ 1
  unstarted : (∀ a, c.admission = some a → a.state.isLeased) → h.filter (startOf k) = []
  token : latestToken k h = c.admission.map (·.leaseToken)
  live : ∀ a, c.admission = some a → a.state.isExecuting → (a.accountedWork = true ↔ StartedLive k h)

lemma chronicle_empty (k : String) : Chronicle k [] (Db.empty.cell k) :=
  ⟨.absent, fun _ => rfl, Nat.zero_le 1, fun _ => rfl, rfl, fun _ ha => nomatch ha⟩

lemma Chronicle.quiet (hc : Chronicle k h c) (hs : startOf k x = false) (hag : Agree c')
    (hn : k = "" → c'.admission = none)
    (hls : (∀ b, c'.admission = some b → b.state.isLeased) → ∀ a, c.admission = some a → a.state.isLeased)
    (ht : (issued k x).or (c.admission.map (·.leaseToken)) = c'.admission.map (·.leaseToken))
    (hec : ∀ b, c'.admission = some b → b.state.isExecuting →
      ∃ a, c.admission = some a ∧ a.state.isExecuting ∧ b.accountedWork = a.accountedWork) :
    Chronicle k (h ++ [x]) c' := by
  refine ⟨hag, hn, ?_, ?_, ?_, ?_⟩
  · rw [starts_concat hs]
    exact hc.starts
  · intro hl
    rw [starts_concat hs]
    exact hc.unstarted (hls hl)
  · rw [latestToken_concat, hc.token]
    exact ht
  · intro b hb he
    obtain ⟨a, ha, hae, hw⟩ := hec b hb he
    rw [startedLive_concat hs, hw]
    exact hc.live a ha hae

lemma chronicle_step (hst : CellStep k x c c') (hc : Chronicle k h c) : Chronicle k (h ++ [x]) c' := by
  have hag := agree_step hst hc.agree
  cases hst with
  | other hs hi =>
    refine hc.quiet hs hag hc.named id ?_ fun b hb he => ⟨b, hb, he, rfl⟩
    rw [hi]
    rfl
  | leased hk hs hi ha hn hw =>
    refine hc.quiet hs hag (fun h0 => absurd h0 hk) (fun _ _ hb => nomatch hb) ?_ ?_
    · rw [hi]
      rfl
    · rintro b ⟨⟩ hb
      exact absurd hb (not_executing_of_leased ha)
  | @renewed _ a b _ _ hs hi ha hb hn hw =>
    refine hc.quiet hs hag (fun h0 => nomatch hc.named h0) ?_ ?_ ?_
    · rintro _ _ ⟨⟩
      exact ha
    · cases hx : issued k x <;> rw [hx] at hi <;> exact congrArg some hi
    · rintro b ⟨⟩ hb'
      exact absurd hb' (not_executing_of_leased hb)
  | @started o live max now a l s s' hk ho ha hsl =>
    have hno : h.filter (startOf k) = [] := by
      refine hc.unstarted ?_
      rintro _ ⟨⟩
      exact ha
    refine ⟨hag, (fun h0 => nomatch hc.named h0), ?_, ?_, ?_, ?_⟩
    · simp [hno, startOf, hk]
    · intro hl
      exact absurd (hl _ rfl) (by simp [start, AdmissionState.isLeased])
    · rw [latestToken_concat, hc.token]
      rfl
    · rintro b ⟨⟩ _
      constructor
      · rintro (rfl : live = true)
        exact ⟨o, max, now, by simp, hk⟩
      rintro ⟨o', max', now', hm, hk'⟩
      obtain hm | hm := mem_append.mp hm
      · exact absurd ⟨o', max', now', hm, hk'⟩ (not_startedLive hno)
      · cases mem_singleton.mp hm
        rfl
  | @staged _ a i l s hs hi ha hn =>
    refine hc.quiet hs hag (fun h0 => nomatch hc.named h0) ?_ ?_ ?_
    · intro hl
      have hls : a.state.isLeased := hl (a.stage i) rfl
      exact absurd ha (not_executing_of_leased hls)
    · rw [hi]
      rfl
    · rintro b ⟨⟩ hb
      exact ⟨a, rfl, hb, rfl⟩
  | @finished _ a t accounted now entry reason s hs hi hop hin =>
    refine hc.quiet hs hag (fun h0 => nomatch hc.named h0) ?_ ?_ ?_
    · intro hl
      exact absurd (hl _ rfl) (by simp [finish, AdmissionState.isLeased])
    · rw [hi]
      rfl
    · rintro b ⟨⟩ hb
      cases hb

def Onward (a b : AdmissionRow) : Prop :=
  (a.state.isTerminal → b = a) ∧ (a.terminalIntent.isSome → b.terminalIntent = a.terminalIntent)

lemma Onward.refl (a : AdmissionRow) : Onward a a := ⟨fun _ => rfl, fun _ => rfl⟩

lemma Onward.trans {c : AdmissionRow} (hab : Onward a b) (hbc : Onward b c) : Onward a c := by
  refine ⟨fun ha => ?_, fun ha => ?_⟩
  · have hb := hab.1 ha
    subst hb
    exact hbc.1 ha
  · have hb := hab.2 ha
    rw [← hb] at ha ⊢
    exact hbc.2 ha

lemma onward_step (hst : CellStep k x c c') (ha : c.admission = some a) :
    ∃ b, c'.admission = some b ∧ Onward a b := by
  cases hst with
  | other => exact ⟨a, ha, .refl a⟩
  | leased => cases ha
  | renewed _ _ hs _ hn =>
    cases ha
    refine ⟨_, rfl, fun ht => ?_, fun _ => hn⟩
    cases (isTerminal_of_isLeased hs).symm.trans ht
  | started _ _ hs =>
    cases ha
    refine ⟨_, rfl, fun ht => ?_, fun _ => rfl⟩
    cases (isTerminal_of_isLeased hs).symm.trans ht
  | staged _ _ hs hn =>
    cases ha
    refine ⟨_, rfl, fun ht => ?_, fun hi => ?_⟩
    · rw [isTerminal_of_isExecuting hs] at ht
      cases ht
    · rw [hn] at hi
      cases hi
  | finished _ _ ho =>
    cases ha
    refine ⟨_, rfl, fun ht => ?_, fun _ => rfl⟩
    cases ho.symm.trans ht

end LeafWeb.Broker
