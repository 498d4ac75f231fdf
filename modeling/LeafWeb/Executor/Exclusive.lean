import LeafWeb.Executor.Moves
import LeafWeb.Lib.Transition

namespace LeafWeb.Executor

open Lib Relation Transition Table Option Bool ClaimRow

structure Ledger where
  db : Authority
  bound : List ℕ

def Ledger.empty : Ledger := ⟨.empty, []⟩

def note (bound : List ℕ) : Op → Answer → List ℕ
  | .createSession s _, .done => s.claimId :: bound
  | _, _ => bound

def Ledger.step (timeout : ℤ) (w : Ledger) (op : Op) : Answer × Ledger :=
  let (answer, db) := apply w.db timeout op
  (answer, ⟨db, note w.bound op answer⟩)

def Op.own : Op → Option ℕ
  | .abortClaim claimId => some claimId
  | .createSession s _ => some s.claimId
  | _ => none

/-- A claim is given up only before a session is created with it, and only one session is. -/
def Disciplined (w : Ledger) (op : Op) : Prop := ∀ claimId ∈ op.own, claimId ∉ w.bound deriving Decidable

structure Exclusive (claims : Table claimId) (sessions : Table Session.sessionId) (bound : List ℕ) : Prop where
  index : ∀ c ∈ claims.rows, ∀ c' ∈ claims.rows, c.state = .active → c'.state = .active →
    c.place = c'.place → c = c'
  backed : ∀ s ∈ sessions.rows, s.state.live →
    ∃ c ∈ claims.rows, c.claimId = s.claimId ∧ c.place = s.place ∧ c.state = .active
  noted : ∀ s ∈ sessions.rows, s.claimId ∈ bound
  once : ∀ s ∈ sessions.rows, ∀ s' ∈ sessions.rows, s.claimId = s'.claimId → s = s'

variable {bound : List ℕ} {t t' : Authority} {claimId : ℕ} {c : ClaimRow}
  {claims claims' : Table ClaimRow.claimId} {sessions sessions' : Table Session.sessionId}

lemma exclusive_empty : Exclusive .empty .empty [] where
  index c hc := by cases hc
  backed s hs := by cases hs
  noted s hs := by cases hs
  once s hs := by cases hs

variable {s : Session}

section

variable (h : Exclusive claims sessions bound)
include h

lemma Exclusive.unused (hs : s ∈ sessions.rows) (hf : claimId ∉ bound) : s.claimId ≠ claimId := by
  rintro rfl
  exact hf (h.noted s hs)

lemma Exclusive.shrink (hcl : ∀ c' ∈ claims'.rows, ∃ c ∈ claims.rows,
      c'.claimId = c.claimId ∧ c'.place = c.place ∧ (c'.state = .active → c.state = .active))
    (hsn : ∀ s' ∈ sessions'.rows, ∃ s ∈ sessions.rows, s'.Follows s)
    (hk : ∀ s' ∈ sessions'.rows, s'.state.live → ∀ c ∈ claims.rows, c.claimId = s'.claimId →
      c.state = .active → ∃ c' ∈ claims'.rows, c'.claimId = c.claimId ∧ c'.place = c.place ∧ c'.state = .active) :
    Exclusive claims' sessions' bound where
  index c₁' h₁ c₂' h₂ ha₁ ha₂ hp := by
    obtain ⟨c₁, hc₁, hid₁, hp₁, hs₁⟩ := hcl c₁' h₁
    obtain ⟨c₂, hc₂, hid₂, hp₂, hs₂⟩ := hcl c₂' h₂
    have hsm : c₁ = c₂ := by
      apply h.index c₁ hc₁ c₂ hc₂ (hs₁ ha₁) (hs₂ ha₂)
      rw [← hp₁, ← hp₂, hp]
    exact claims'.eq_of_key h₁ h₂ (by rw [hid₁, hid₂, hsm])
  backed s' hs' hl := by
    obtain ⟨s, hs, hf⟩ := hsn s' hs'
    obtain ⟨c, hc, hcid, hcp, ha⟩ := h.backed s hs (hf.live hl)
    obtain ⟨c', hc', hid', hp', ha'⟩ := hk s' hs' hl c hc (hcid.trans hf.claim.symm) ha
    exact ⟨c', hc', by rw [hid', hcid, hf.claim], by rw [hp', hcp, hf.place], ha'⟩
  noted s' hs' := by
    obtain ⟨s, hs, hf⟩ := hsn s' hs'
    rw [hf.claim]
    exact h.noted s hs
  once s₁' h₁ s₂' h₂ hsm := by
    obtain ⟨s₁, hs₁, hf₁⟩ := hsn s₁' h₁
    obtain ⟨s₂, hs₂, hf₂⟩ := hsn s₂' h₂
    have heq : s₁ = s₂ := h.once s₁ hs₁ s₂ hs₂ (by rw [← hf₁.claim, ← hf₂.claim, hsm])
    exact sessions'.eq_of_key h₁ h₂ (by rw [hf₁.session, hf₂.session, heq])

lemma Exclusive.touch (hs : ∀ s' ∈ sessions'.rows, ∃ s ∈ sessions.rows, s'.Follows s) :
    Exclusive claims sessions' bound := by
  apply h.shrink _ hs
  · intro s' _ _ c hc _ ha
    exact ⟨c, hc, rfl, rfl, ha⟩
  · intro c hc
    exact ⟨c, hc, rfl, rfl, id⟩

lemma Exclusive.fence {p : ClaimRow → Bool} {q : Session → Bool}
    (hb : ∀ c ∈ claims.rows, p c → ∀ s ∈ sessions.rows, s.claimId = c.claimId → s.state.live → q s) :
    Exclusive (claims.updateWhere p .release ClaimRow.release_id)
      (sessions.updateWhere q .invalidate Session.invalidate_id) bound := by
  apply h.shrink
  · intro c' hc'
    obtain ⟨c, hc, rfl⟩ := mem_updateWhere.mp hc'
    refine ⟨c, hc, ?_⟩
    split_ifs
    · exact ⟨rfl, rfl, fun hs => by cases hs⟩
    · exact ⟨rfl, rfl, id⟩
  · intro s' hs'
    obtain ⟨s, hs, rfl⟩ := mem_updateWhere.mp hs'
    refine ⟨s, hs, ?_⟩
    split_ifs
    · exact s.invalidate_follows
    · exact .refl s
  · intro s' hs' hl c hc hid ha
    obtain ⟨s, hs, rfl⟩ := mem_updateWhere.mp hs'
    split_ifs at hid hl with hq
    · cases hl
    · refine ⟨c, mem_updateWhere.mpr ⟨c, hc, if_neg fun hp => ?_⟩, rfl, rfl, ha⟩
      exact hq (hb c hc hp s hs hid.symm hl)

lemma Exclusive.claim (hin : ∀ c' ∈ claims.rows, c'.state = .active → c'.place ≠ c.place)
    (hi : claims.insert c = some claims') : Exclusive claims' sessions bound where
  index c₁ h₁ c₂ h₂ ha₁ ha₂ hp := by
    rw [mem_insert hi] at h₁ h₂
    rcases h₁ with h₁ | rfl
    · rcases h₂ with h₂ | rfl
      · exact h.index c₁ h₁ c₂ h₂ ha₁ ha₂ hp
      · exact absurd hp (hin c₁ h₁ ha₁)
    · rcases h₂ with h₂ | rfl
      · exact absurd hp.symm (hin c₂ h₂ ha₂)
      · rfl
  backed s hs hl := by
    obtain ⟨c', hc', hr⟩ := h.backed s hs hl
    exact ⟨c', (mem_insert hi).mpr (.inl hc'), hr⟩
  noted := h.noted
  once := h.once

lemma Exclusive.bind (hs : ∀ r ∈ sessions'.rows, r.Follows s ∨ r ∈ sessions.rows)
    (hb : ∃ c ∈ claims.rows, c.claimId = s.claimId ∧ c.place = s.place ∧ c.state = .active)
    (hf : s.claimId ∉ bound) : Exclusive claims sessions' (s.claimId :: bound) where
  index := h.index
  backed r hr hl := by
    rcases hs r hr with hn | hold
    · rw [hn.claim, hn.place]
      exact hb
    · exact h.backed r hold hl
  noted r hr := by
    rcases hs r hr with hn | hold
    · rw [hn.claim]
      exact List.mem_cons_self
    · exact List.mem_cons_of_mem _ (h.noted r hold)
  once r hr r' hr' hsm := by
    rcases hs r hr with hn | hold
    · rcases hs r' hr' with hn' | hold'
      · exact eq_of_key _ hr hr' (hn.session.trans hn'.session.symm)
      · exact absurd (hsm.symm.trans hn.claim) (h.unused hold' hf)
    · rcases hs r' hr' with hn' | hold'
      · exact absurd (hsm.trans hn'.claim) (h.unused hold hf)
      · exact h.once r hold r' hold' hsm

end

section

variable (h : Exclusive t.claims t.sessions bound)
include h

lemma Exclusive.finish (hs : s ∈ t.sessions.rows) : Exclusive (finish t s).claims (finish t s).sessions bound := by
  apply h.fence
  intro c _ hp s' hs' hid _
  simp only [and_eq_true, decide_eq_true_eq] at hp ⊢
  exact congrArg Session.sessionId (h.once s' hs' s hs (hid.trans hp.1))

lemma Exclusive.registerHost (hostId endpoint : String) (slotIds : List String) (now : ℤ) :
    Exclusive (registerHost t hostId endpoint slotIds now).2.claims
      (registerHost t hostId endpoint slotIds now).2.sessions bound := by
  apply h.fence
  intro c hc hp s hs hid hl
  simp only [and_eq_true, decide_eq_true_eq] at hp ⊢
  obtain ⟨c', hc', hid', hpl, -⟩ := h.backed s hs hl
  have hsm : c' = c := t.claims.eq_of_key hc' hc (hid'.trans hid)
  rw [hsm] at hpl
  exact ⟨(congrArg Prod.fst hpl).symm.trans hp.1, hl⟩

lemma Exclusive.abortClaim (hf : t.claims.find claimId = some c) (ha : c.state = .active) (hfr : claimId ∉ bound) :
    Exclusive (abortClaim t claimId).claims (abortClaim t claimId).sessions bound := by
  have hfl : (t.claims.find claimId).filter (fun c => c.state = .active) = some c := by
    simp [hf, ha]
  simp only [Executor.abortClaim, hfl]
  apply h.shrink
  · intro c' hc'
    obtain ⟨c₀, hc₀, hid, hc' | hc'⟩ := mem_modify _ hc'
    · exact ⟨c₀, hc₀, by rw [hc']; exact ⟨rfl, rfl, fun hs => by cases hs⟩⟩
    · exact ⟨c₀, hc₀, by rw [hc']; exact ⟨rfl, rfl, id⟩⟩
  · intro s hs
    exact ⟨s, hs, .refl s⟩
  · intro s hs _ c₀ hc₀ hid ha₀
    have hne : c₀.claimId ≠ claimId := by
      rw [hid]
      exact h.unused hs hfr
    have hf₀ := find_modify t.claims claimId ClaimRow.release ClaimRow.release_id c₀.claimId
    rw [if_neg hne, find_some.mpr ⟨hc₀, rfl⟩] at hf₀
    exact ⟨c₀, mem_of_find hf₀, rfl, rfl, ha₀⟩

lemma Exclusive.createSession {dbNow : ℤ} (hv : validClaim t s dbNow) (hfr : s.claimId ∉ bound) :
    Exclusive t.claims (t.sessions.upsert s.bound s.takeOver s.takeOver_id) (s.claimId :: bound) := by
  refine h.bind (s := s.bound) ?_ ?_ hfr
  · intro r hr
    rcases mem_created hr with ⟨a, rfl⟩ | ⟨hr, -⟩
    · exact .inl ⟨rfl, rfl, rfl, rfl, id⟩
    · exact .inr hr
  · obtain ⟨c, hf, hc⟩ := (any_eq_true _ _).mp hv
    simp only [and_eq_true, decide_eq_true_eq] at hc
    exact ⟨c, mem_of_find hf, find_key hf, hc.1.1.1, hc.1.1.2⟩

variable {op : Op}

lemma Exclusive.move (hop : ∀ claimId ∈ op.own, claimId ∉ bound) (hc : ∀ s dbNow, op ≠ .createSession s dbNow)
    (hm : Move op t t') : Exclusive t'.claims t'.sessions bound := by
  have hfl : ∀ s' ∈ t'.sessions.rows, ∃ s ∈ t.sessions.rows, s'.Follows s := by
    intro s' hs'
    rcases sessions_of_move hm s' hs' with hold | ⟨s, dbNow, hn, -⟩
    · exact hold
    · exact absurd hn (hc s dbNow)
  cases hm with
  | registerHost hostId endpoint slotIds now => exact h.registerHost hostId endpoint slotIds now
  | claim _ hin hi =>
    refine h.claim ?_ hi
    exact hin
  | abortClaim hf ha => exact h.abortClaim hf ha (hop _ rfl)
  | createSession => exact absurd rfl (hc _ _)
  | finish _ hf => exact h.finish (mem_of_find hf)
  | fence hf _ => exact h.finish (mem_of_find hf)
  | setReadiness | heartbeat | activate | renew => exact h.touch hfl
  | completeReclaim sessionId dbNow =>
    unfold completeReclaim
    split <;> exact h
  | drain hd =>
    simp only [drain, bind_refuse] at hd
    obtain ⟨-, -, rfl⟩ := hd
    exact h.touch hfl

end

variable {timeout : ℤ} {w : Ledger} {op : Op}

lemma Exclusive.step (h : Exclusive w.db.claims w.db.sessions w.bound) (hop : Disciplined w op) :
    Exclusive (w.step timeout op).2.db.claims (w.step timeout op).2.db.sessions (w.step timeout op).2.bound := by
  by_cases hc : ∃ s dbNow, op = .createSession s dbNow
  · obtain ⟨s, dbNow, rfl⟩ := hc
    cases hx : Executor.createSession w.db s dbNow with
    | error e => simpa [Ledger.step, apply, hx, commit, Except.map, note] using h
    | ok t' =>
      obtain ⟨hv, -, rfl⟩ := createSession_eq_ok hx
      simp only [Ledger.step, apply, hx]
      exact h.createSession hv (hop _ rfl)
  · push Not at hc
    have hb : (w.step timeout op).2.bound = w.bound := by
      simp only [Ledger.step, note]
      split
      · exact absurd rfl (hc _ _)
      · rfl
    rw [hb]
    apply apply_induction (I := fun u => Exclusive u.claims u.sessions w.bound) h
    intro u u' _ hu hm
    exact hu.move hop hc hm

lemma released_move (hm : Move op t t') (h : ∃ c, t.claims.find claimId = some c ∧ c.state ≠ .active) :
    ∃ c, t'.claims.find claimId = some c ∧ c.state ≠ .active := by
  have hu : ∀ p : ClaimRow → Bool, ∃ c,
      (t.claims.updateWhere p .release release_id).find claimId = some c ∧ c.state ≠ .active := by
    intro p
    obtain ⟨c, hf, hc⟩ := h
    refine ⟨_, (find_updateWhere release_id _).trans (by rw [hf]; rfl), ?_⟩
    dsimp only
    split_ifs
    · simp [release]
    · exact hc
  cases hm with
  | registerHost hostId endpoint slotIds now => exact hu _
  | claim _ hin hi =>
    obtain ⟨c, hf, hc⟩ := h
    exact ⟨c, find_insert_of_find hi hf, hc⟩
  | abortClaim hf ha =>
    rename_i c₀ claimId₀
    obtain ⟨c, hf', hc⟩ := h
    have hfl : (t.claims.find claimId₀).filter (fun c => c.state = .active) = some c₀ := by
      simp [hf, ha]
    simp only [abortClaim, hfl]
    refine ⟨c, (find_modify _ _ _ _ _).trans ?_, hc⟩
    rw [if_neg, hf']
    rintro rfl
    exact hc (mem_unique hf hf' ▸ ha)
  | finish _ _ => exact hu _
  | fence _ _ => exact hu _
  | completeReclaim sessionId dbNow =>
    unfold completeReclaim
    split <;> exact h
  | drain hd =>
    simp only [drain, bind_refuse] at hd
    obtain ⟨-, -, rfl⟩ := hd
    exact h
  | setReadiness | heartbeat | createSession | activate | renew => exact h

lemma released_after (timeout : ℤ) (ops : List Op)
    (h : ∃ c, w.db.claims.find claimId = some c ∧ c.state ≠ .active) :
    ∃ c, (after (Ledger.step timeout) w ops).db.claims.find claimId = some c ∧ c.state ≠ .active := by
  apply invariant (I := fun w : Ledger =>
    ∃ c, w.db.claims.find claimId = some c ∧ c.state ≠ .active) h
  intro w op hw
  exact apply_induction (I := fun u => ∃ c, u.claims.find claimId = some c ∧ c.state ≠ .active) hw
    fun u u' _ hu hm => released_move hm hu

def Op.basis (t : Authority) : Op → Option ℕ
  | .activate sessionId _ => (t.sessions.find sessionId).map Session.claimId
  | .renew sessionId _ _ => (t.sessions.find sessionId).map Session.claimId
  | _ => none

lemma basis_active (hb : op.basis t = some claimId) (hd : (apply t timeout op).1 = .done) :
    ∃ c, t.claims.find claimId = some c ∧ c.state = .active := by
  have hof : ∀ {s : Session} {sessionId : String} {p : ClaimRow → Bool},
      t.sessions.find sessionId = some s → (t.sessions.find sessionId).map Session.claimId = some claimId →
        (t.claims.find s.claimId).any p → (∀ c, p c → c.state = .active) →
          ∃ c, t.claims.find claimId = some c ∧ c.state = .active := by
    intro s sessionId p hf hm hany hp
    obtain ⟨c, hc, hpc⟩ := (any_eq_true _ _).mp hany
    rw [hf] at hm
    obtain rfl : s.claimId = claimId := some.inj hm
    exact ⟨c, hc, hp c hpc⟩
  cases op with
  | activate sessionId l =>
    obtain ⟨t', hok⟩ := done_ok hd
    obtain ⟨s, leases, hf, ha, -, -⟩ := activate_eq_ok hok
    simp only [activatable, and_eq_true] at ha
    refine hof hf hb ha.2 ?_
    intro c hc
    simp only [and_eq_true, decide_eq_true_eq] at hc
    exact hc.1.1.1
  | renew sessionId expectedEpoch l =>
    obtain ⟨t', hok⟩ := done_ok hd
    obtain ⟨s, leases, hf, hr, -, -⟩ := renew_eq_ok hok
    simp only [renewable, and_eq_true] at hr
    refine hof hf hb hr.2 ?_
    intro c hc
    simp only [and_eq_true, decide_eq_true_eq] at hc
    exact hc.1
  | _ => cases hb

def SessionState.serving : SessionState → Bool
  | .active | .draining => true
  | .binding | .invalid => false

lemma live_of_serving {s : SessionState} (h : s.serving) : s.live := by
  cases s <;> simp_all [SessionState.serving, SessionState.live]

theorem exclusive_binding (timeout : ℤ) (ops : List Op) (h : Along (Ledger.step timeout) Disciplined .empty ops) :
    let run := fun ops => (after (Ledger.step timeout) .empty ops).db
    (∀ s ∈ (run ops).sessions.rows, ∀ s' ∈ (run ops).sessions.rows,
      s.state.serving → s'.state.serving → s.place = s'.place → s = s') ∧
    (∀ s ∈ (run ops).sessions.rows, s.state.serving →
      ∃ c ∈ (run ops).claims.rows, c.claimId = s.claimId ∧ c.place = s.place ∧ c.state = .active) ∧
    ∀ pre mid op suf, ops = pre ++ mid ++ op :: suf → ∀ c ∈ (run pre).claims.rows, c.state ≠ .active →
      (apply (run (pre ++ mid)) timeout op).1 = .done → op.basis (run (pre ++ mid)) ≠ some c.claimId := by
  intro run
  have hi : Exclusive (run ops).claims (run ops).sessions (after (Ledger.step timeout) .empty ops).bound :=
    invariant_along (I := fun w : Ledger => Exclusive w.db.claims w.db.sessions w.bound)
      exclusive_empty (fun _ _ hw hop => hw.step hop) ops h
  refine ⟨?_, fun s hs hsr => hi.backed s hs (live_of_serving hsr), ?_⟩
  · intro s hs s' hs' hsr hsr' hp
    obtain ⟨c, hc, hid, hp₁, ha⟩ := hi.backed s hs (live_of_serving hsr)
    obtain ⟨c', hc', hid', hp₂, ha'⟩ := hi.backed s' hs' (live_of_serving hsr')
    have hsm : c = c' := hi.index c hc c' hc' ha ha' (by rw [hp₁, hp₂, hp])
    exact hi.once s hs s' hs' (by rw [← hid, ← hid', hsm])
  · rintro pre mid op suf rfl c hc hr hd hb
    obtain ⟨c', hf, ha⟩ := basis_active hb hd
    have hl := released_after timeout mid ⟨c, find_some.mpr ⟨hc, rfl⟩, hr⟩
    rw [← after_append] at hl
    obtain ⟨c'', hf', hr'⟩ := hl
    exact hr' (mem_unique hf hf' ▸ ha)

def Session.onSlot (sessionId : String) (claimId : ℕ) : Session :=
  ⟨7, "tenant", sessionId, "host", "slot-1", claimId, 1, "sha256:c", "sha256:a", "sha256:a", "sha256:r",
    "tool", .binding, none, 0, none, none⟩

def Lease.onSlot (leaseId claimId : ℕ) : Lease := ⟨leaseId, "host", "slot-1", claimId, 1, 1, 1, 1, 0, 60⟩

def claimedSlot (claimId : ℕ) : List Op :=
  [.registerHost "host" "https://10.0.0.1:8088" ["slot-1"] 0,
    .setReadiness "host" "slot-1" true "sha256:a" "sha256:r",
    .claimReadySlot 0 (some ("host", "slot-1")) claimId 60]

def oneSession : List Op := claimedSlot 1 ++
    [.createSession (.onSlot "first" 1) 0, .activate "first" (.onSlot 2 1)]

theorem one_session_backed :
    Along (Ledger.step 30) Disciplined .empty oneSession ∧
      ∃ c ∈ (after (Ledger.step 30) .empty oneSession).db.claims.rows,
        c.claimId = 1 ∧ c.place = ("host", "slot-1") ∧ c.state = .active := by
  have h : Along (Ledger.step 30) Disciplined .empty oneSession := by decide +kernel
  have hr : (Session.onSlot "first" 1).activated (.onSlot 2 1) ∈
      (after (Ledger.step 30) .empty oneSession).db.sessions.rows := by decide +kernel
  exact ⟨h, (exclusive_binding 30 oneSession h).2.1 _ hr rfl⟩

theorem one_claim_two_sessions :
    let t := (after (Ledger.step 30) .empty
      (oneSession ++ [.createSession (.onSlot "second" 1) 0, .activate "second" (.onSlot 3 1)])).db
    ∃ s ∈ t.sessions.rows, ∃ s' ∈ t.sessions.rows,
      s.state.serving ∧ s'.state.serving ∧ s.place = s'.place ∧ s ≠ s' := by
  decide +kernel

end LeafWeb.Executor
