import LeafWeb.Broker.EventKey

namespace LeafWeb.Broker

open Lib Transition Table Option

variable {db db₁ db₂ db₃ db' : Db}

lemma step_cell (hc : Consistent db) (e : Event) (k : String) :
    CellStep k (e, (step db e).1) (db.cell k) ((step db e).2.cell k) :=
  effect_cell (step_effect hc e) k

lemma step_consistent (hc : Consistent db) (e : Event) : Consistent (step db e).2 :=
  fun k => agree_step (step_cell hc e k) (hc k)

def Later (db db' : Db) : Prop :=
  ∀ k a, db.admissions.find k = some a → ∃ b, db'.admissions.find k = some b ∧ Onward a b

lemma step_later (hc : Consistent db) (e : Event) : Later db (step db e).2 :=
  fun k _ ha => onward_step (step_cell hc e k) ha

lemma Later.trans (h₁ : Later db₁ db₂) (h₂ : Later db₂ db₃) : Later db₁ db₃ := by
  intro k a ha
  obtain ⟨b, hb, hab⟩ := h₁ k a ha
  obtain ⟨c, hc, hbc⟩ := h₂ k b hb
  exact ⟨c, hc, hab.trans hbc⟩

lemma heldSlots_release (key reason : String) : heldSlots (releaseSlot db key reason) ≤ heldSlots db := by
  rw [heldSlots, heldSlots, releaseSlot, Table.modify, Table.total_update]
  refine Table.total_le_total fun s _ => ?_
  split_ifs with hk hr hs
  · exact le_rfl
  · exact absurd hr (SlotRow.release_state_ne reason s)
  · exact Nat.zero_le _
  all_goals exact le_rfl

lemma effect_heldSlots {e : Event} {r : Except BrokerError Answer} (he : Effect db e r db') :
    heldSlots db' ≤ heldSlots db ∨ ∃ o live max now, e = .mark o live max now ∧ heldSlots db' ≤ max := by
  cases he with
  | raised | idle | duplicated | leased | reclaimed | refused | lapsed | staged =>
    exact Or.inl le_rfl
  | @started o live max now a slots hfn ho hs hsl =>
    cases live with
    | false =>
      refine Or.inl (le_of_eq ?_)
      rw [heldSlots, heldSlots, show slots = db.slots from hsl]
    | true =>
      refine Or.inr ⟨o, true, max, now, rfl, ?_⟩
      have hc : slots.total (fun s : SlotRow => if s.state = .held then 1 else 0) =
          heldSlots db + 1 := total_insert _ hsl.1
      rw [heldSlots, hc]
      exact_mod_cast hsl.2
  | finished _ _ hf =>
    cases hf
    exact Or.inl (heldSlots_release _ _)

lemma chronicle_run (es : List Event) (k : String) :
    Chronicle k (trace step .empty es) ((after step .empty es).cell k) := by
  revert k
  refine history (I := fun h (db : Db) => ∀ k, Chronicle k h (db.cell k)) chronicle_empty ?_ es
  intro h db e hi k
  exact chronicle_step (step_cell (fun k => (hi k).agree) e k) (hi k)

lemma consistent_run (es : List Event) : Consistent (after step .empty es) := fun k => (chronicle_run es k).agree

lemma later_run (es fs : List Event) : Later (after step .empty es) (after step .empty (es ++ fs)) := by
  rw [after_append]
  exact related (I := Consistent) (R := Later) (fun _ _ a ha => ⟨a, ha, .refl a⟩)
    (fun _ _ _ => Later.trans)
    (fun _ e hc => step_consistent hc e) (fun _ e hc => step_later hc e) (consistent_run es) fs

lemma heldSlots_run (es : List Event) :
    heldSlots (after step .empty es) = 0 ∨ ∃ o live max now,
      Event.mark o live max now ∈ es ∧ heldSlots (after step .empty es) ≤ max := by
  induction es using List.reverseRecOn with
  | nil => exact Or.inl rfl
  | append_singleton es e ih =>
    rw [after_concat]
    obtain hle | ⟨o, live, max, now, rfl, hle⟩ :=
      effect_heldSlots (step_effect (consistent_run es) e)
    · obtain hz | ⟨o, live, max, now, hm, hmax⟩ := ih
      · exact Or.inl (Nat.le_zero.mp (hz ▸ hle))
      · exact Or.inr ⟨o, live, max, now, List.mem_append_left _ hm, le_trans (by exact_mod_cast hle) hmax⟩
    · exact Or.inr ⟨o, live, max, now, by simp, hle⟩

variable {now at' status : ℤ} {k token : String} {a : AdmissionRow} {h : List Record}

lemma started_token {live : Bool} {o : Owner} {max : ℤ}
    (hc : Chronicle o.eventKey h (db.cell o.eventKey)) (hdb : Consistent db)
    (hs : (step db (.mark o live max now)).1 = .ok (.started true)) :
    latestToken o.eventKey h = some o.leaseToken := by
  have he := step_effect hdb (.mark o live max now)
  rw [hs] at he
  generalize (step db (.mark o live max now)).2 = db' at he
  cases he with
  | idle ha => simp at ha
  | @started _ _ _ _ a slots hf ho hl hsl =>
    rw [Owner.owns, Bool.and_eq_true, decide_eq_true_eq, decide_eq_true_eq] at ho
    rw [hc.token, Db.cell, hf, map_some, ho.2]
  | finished ht => cases ht

lemma Consistent.terminal_iff (hc : Consistent db) (hf : db.admissions.find k = some a) :
    a.state.isTerminal ↔ (db.ledger.find k).isSome := by
  have h := hc k
  rw [Db.cell, hf] at h
  generalize db.ledger.find k = l, db.slots.find k = s at h ⊢
  cases h with
  | leased hs => simp [isTerminal_of_isLeased hs]
  | executing hs => simp [isTerminal_of_isExecuting hs]
  | terminal hs => simp [hs]

lemma Consistent.staged {i : SuccessIntent} (hc : Consistent db) (hf : db.admissions.find k = some a)
    (hi : a.terminalIntent = some i) (ht : a.state.isTerminal) :
    (∃ started at', a.state = .terminal started i.result i.httpStatus at') ∧
      db.ledger.find k = some ⟨k, i.ledgerEntry⟩ := by
  have hk : ∀ l, db.ledger.find k = some l → l.eventKey = k := fun l => find_key
  have h := hc k
  rw [Db.cell, hf] at h
  generalize db.ledger.find k = l, db.slots.find k = s at h hk ⊢
  cases h with
  | leased hs => rw [isTerminal_of_isLeased hs] at ht; cases ht
  | executing hs => rw [isTerminal_of_isExecuting hs] at ht; cases ht
  | @terminal _ l _ _ _ htr =>
    obtain ⟨he, hst⟩ := htr i hi
    refine ⟨hst, congrArg some ?_⟩
    rw [← he, ← hk l rfl]

lemma Chronicle.slot_iff (hc : Chronicle k h (db.cell k)) :
    (∃ s, db.slots.find k = some s ∧ s.state = .held) ↔
      (∃ a, db.admissions.find k = some a ∧ a.state.isExecuting) ∧ StartedLive k h := by
  have ha := hc.agree
  have hl := hc.live
  rw [Db.cell] at ha hl
  generalize db.admissions.find k = row, db.ledger.find k = l, db.slots.find k = s at ha hl ⊢
  cases ha with
  | absent => simp
  | leased hs => simp [not_executing_of_leased hs]
  | @executing a _ hs hsl =>
    have hwr := hl a rfl hs
    cases s with
    | none =>
      have hn : a.accountedWork = false := by
        cases hw : a.accountedWork
        · rfl
        · rw [hw] at hsl; cases hsl
      rw [hn] at hwr
      simp [← hwr]
    | some slot =>
      have hn : a.accountedWork = true ∧ slot.state = .held := by
        cases hw : a.accountedWork
        · rw [hw] at hsl; cases hsl
        · rw [hw] at hsl
          exact ⟨rfl, some.inj hsl⟩
      simp [← hwr, hn, hs]
  | @terminal a l _ hs hsl =>
    have hn : ¬ a.state.isExecuting := by
      intro he
      cases (isTerminal_of_isExecuting he).symm.trans hs
    cases s with
    | none => simp [hn]
    | some slot =>
      have hne : slot.state ≠ .held := fun he => hsl (congrArg some he)
      simp [hn, hne]

lemma step_replay {r : RunRequest} {result : Result} {started : Option ℤ} (hfn : db.admissions.find r.key = some a)
    (hs : a.state = .terminal started result status at') (hk : r.key ≠ "")
    (ht : r.tenantId = a.tenantId) (hf : r.requestFingerprint = a.requestFingerprint)
    (hls : 1 ≤ r.leaseSeconds ∧ r.leaseSeconds ≤ 300) :
    (step db (.admitRun r token now)).1 = .ok (.admitted (.replay result status)) := by
  have hd : duplicate a r now = some (.replay result status) := by
    simp [duplicate, ht, hf, hs]
  have hl : ¬ (r.leaseSeconds < 1 ∨ 300 < r.leaseSeconds) := by omega
  simp [step, transact, admitRun, hk, hl, hfn, hd, Except.map]

theorem paid_runs_accounted_once (es : List Event) :
    -- an execution starts at most once, and with the latest token of its key
    (∀ k, ((trace step .empty es).filter (startOf k)).length ≤ 1) ∧
    (∀ o live max now,
      (step (after step .empty es) (.mark o live max now)).1 = .ok (.started true) →
        latestToken o.eventKey (trace step .empty es) = some o.leaseToken) ∧
    -- terminal admissions and ledger rows correspond
    (∀ k a, (after step .empty es).admissions.find k = some a →
      (a.state.isTerminal ↔ ((after step .empty es).ledger.find k).isSome)) ∧
    (∀ k, ((after step .empty es).ledger.rows.filter (fun l => l.eventKey = k)).length ≤ 1) ∧
    -- what is terminal stays so and is replayed
    (∀ fs k a started result status at',
      (after step .empty es).admissions.find k = some a →
      a.state = .terminal started result status at' →
        (∃ b, (after step .empty (es ++ fs)).admissions.find k = some b ∧ b.state = a.state) ∧
        ∀ r token now, r.key = k → r.tenantId = a.tenantId →
          r.requestFingerprint = a.requestFingerprint →
          1 ≤ r.leaseSeconds ∧ r.leaseSeconds ≤ 300 →
            (step (after step .empty (es ++ fs)) (.admitRun r token now)).1 =
              .ok (.admitted (.replay result status))) ∧
    -- a staged intent fixes the terminal record
    (∀ fs k a b i, (after step .empty es).admissions.find k = some a →
      a.terminalIntent = some i → (after step .empty (es ++ fs)).admissions.find k = some b →
      b.state.isTerminal →
        (∃ started at', b.state = .terminal started i.result i.httpStatus at') ∧
        (after step .empty (es ++ fs)).ledger.find k = some ⟨k, i.ledgerEntry⟩) ∧
    -- slots are held by the live executions, within the largest concurrency passed
    (∀ k, (∃ s, (after step .empty es).slots.find k = some s ∧ s.state = .held) ↔
      (∃ a, (after step .empty es).admissions.find k = some a ∧ a.state.isExecuting) ∧
        StartedLive k (trace step .empty es)) ∧
    (heldSlots (after step .empty es) = 0 ∨ ∃ o live max now,
      Event.mark o live max now ∈ es ∧ heldSlots (after step .empty es) ≤ max) := by
  refine ⟨fun k => (chronicle_run es k).starts, ?_, ?_, ?_, ?_, ?_, ?_, heldSlots_run es⟩
  · intro o live max now hs
    exact started_token (chronicle_run es o.eventKey) (consistent_run es) hs
  · intro k a hfn
    exact (consistent_run es).terminal_iff hfn
  · intro k
    exact length_filter_key _ k
  · intro fs k a started result status at' hfn hs
    obtain ⟨b, hb, hab⟩ := later_run es fs k a hfn
    have hba : b = a := hab.1 (by rw [hs]; rfl)
    rw [hba] at hb
    refine ⟨⟨a, hb, rfl⟩, ?_⟩
    rintro r token now rfl ht hf hl
    have hk : r.key ≠ "" := by
      intro h0
      have hn := (chronicle_run (es ++ fs) r.key).named h0
      rw [Db.cell, hb] at hn
      cases hn
    exact step_replay hb hs hk ht hf hl
  · intro fs k a b i hfn hi hb ht
    obtain ⟨b', hb', hab⟩ := later_run es fs k a hfn
    cases hb.symm.trans hb'
    have hi' : b.terminalIntent = some i := (hab.2 (by rw [hi]; rfl)).trans hi
    exact (consistent_run (es ++ fs)).staged hb hi' ht
  · intro k
    exact (chronicle_run es k).slot_iff

def sampleFingerprint : String := "0123456789abcdef0123456789abcdef0123456789abcdef0123456789abcdef"

def sampleJob : String := "00000000-0000-0000-0000-000000000001"

def sampleKey : String := "00000000-0000-0000-0000-000000000001:broker-run"

def sampleRequest : RunRequest := ⟨sampleKey, "tenant", true, 1, some 10, some 5, sampleFingerprint, 30⟩

def sampleOwner : Owner := ⟨sampleKey, "tenant", "token-1"⟩

def sampleResult : Result := ⟨true, some false, some ⟨some 60, some 1⟩, ""⟩

def sampleIntent : SuccessIntent :=
  ⟨1, sampleKey, "tenant", sampleFingerprint, sampleJob, "workitem-1",
    ⟨3, "tenant", none, "run", "/v1", true, some 60, some 1, "ok", some sampleJob⟩, sampleResult, 200⟩

def settledEvents : List Event :=
  [.admitRun sampleRequest "token-1" 0, .mark sampleOwner true 1 1, .stage sampleOwner sampleIntent,
   .settle sampleKey "tenant" "reconciler" 2]

theorem paid_runs_accounted_once_settled :
    (trace step .empty settledEvents).map (·.2.toOption) =
      [some (.admitted (.acquired "token-1" false)), some (.started true), some .staged, some (.settled false)] ∧
    (after step .empty settledEvents).ledger.find sampleKey = some ⟨sampleKey, sampleIntent.ledgerEntry⟩ ∧
    (step (after step .empty settledEvents) (.admitRun sampleRequest "token-2" 3)).1 =
      .ok (.admitted (.replay sampleResult 200)) := by
  obtain ⟨-, -, -, -, hr, hst, -, -⟩ := paid_runs_accounted_once settledEvents
  obtain ⟨a, ha⟩ : ∃ a, (after step .empty settledEvents).admissions.find sampleKey = some a :=
    isSome_iff_exists.mp (by decide +kernel)
  have hrow : ((after step .empty settledEvents).admissions.find sampleKey).map (fun a =>
      (a.state, a.tenantId, a.requestFingerprint, a.terminalIntent)) =
      some (.terminal (some 1) sampleResult 200 2, "tenant", sampleFingerprint,
        some sampleIntent) := by decide +kernel
  rw [ha, map_some, some.injEq, Prod.mk.injEq, Prod.mk.injEq, Prod.mk.injEq] at hrow
  obtain ⟨hs, ht, hf, hi⟩ := hrow
  have hn := hr [] sampleKey a _ _ _ _ ha hs
  have he := hst [] sampleKey a a sampleIntent ha hi
  refine ⟨by decide +kernel, (he ha (by rw [hs]; rfl)).2, ?_⟩
  exact hn.2 sampleRequest "token-2" 3 (by decide +kernel) ht.symm hf.symm ⟨by decide, by decide⟩

end LeafWeb.Broker
