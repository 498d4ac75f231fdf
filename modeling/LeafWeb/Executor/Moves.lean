import LeafWeb.Executor.Authority

namespace LeafWeb.Executor

open Lib Relation Table Option Session

inductive Op.Claims : Op → ℕ → Prop
  | slot (dbNow : ℤ) (hostId slotId : String) (expectedVersion : ℤ) (claimId : ℕ) (expiresAt : ℤ) :
      Claims (.claimSlot dbNow hostId slotId expectedVersion claimId expiresAt) claimId
  | ready (dbNow : ℤ) (picked : Option (String × String)) (claimId : ℕ) (expiresAt : ℤ) :
      Claims (.claimReadySlot dbNow picked claimId expiresAt) claimId

inductive Op.Finishes : Op → String → Prop
  | release (sessionId : String) : Finishes (.release sessionId) sessionId
  | invalidate (sessionId : String) (expectedEpoch : Option ℤ) :
      Finishes (.invalidate sessionId expectedEpoch) sessionId

/-- A change that a transaction of the operation commits; reclaiming makes one for each session. -/
inductive Move : Op → Authority → Authority → Prop
  | registerHost {t : Authority} (hostId endpoint : String) (slotIds : List String) (now : ℤ) :
      Move (.registerHost hostId endpoint slotIds now) t (registerHost t hostId endpoint slotIds now).2
  | setReadiness {t : Authority} (hostId slotId : String) (ready : Bool) (code runtime : String) :
      Move (.setReadiness hostId slotId ready code runtime) t
        { t with
          slots := t.slots.modify (hostId, slotId) (.report ready code runtime)
            (SlotRow.report_place ready code runtime) }
  | heartbeat {t : Authority} (hostId : String) (now : ℤ) :
      Move (.heartbeat hostId now) t
        { t with hosts := t.hosts.modify hostId (.beat now) (HostRow.beat_id now) }
  | claim {t : Authority} {op : Op} {r : SlotRow} {claimId : ℕ} {expiresAt : ℤ}
      {claims : Table ClaimRow.claimId} (hop : op.Claims claimId)
      (hindex : ∀ c ∈ t.claims.rows, c.state = .active → c.place ≠ r.place)
      (hinsert : t.claims.insert (r.claimRow claimId expiresAt) = some claims) :
      Move op t
        { t with claims, slots := t.slots.modify r.place (.claim claimId) (SlotRow.claim_place claimId) }
  | abortClaim {t : Authority} {c : ClaimRow} {claimId : ℕ} (hfind : t.claims.find claimId = some c)
      (hactive : c.state = .active) : Move (.abortClaim claimId) t (abortClaim t claimId)
  | createSession {t : Authority} {s : Session} {dbNow : ℤ} (hvalid : validClaim t s dbNow)
      (hfree : ∀ old, t.sessions.find s.sessionId = some old → ¬old.state.live) :
      Move (.createSession s dbNow) t
        { t with sessions := t.sessions.upsert s.bound s.takeOver s.takeOver_id }
  | activate {t : Authority} {sessionId : String} {l : Lease} {s : Session}
      {leases : Table LeaseRow.leaseId} (hfind : t.sessions.find sessionId = some s)
      (hactivatable : activatable t l s) (hinsert : t.leases.insert (l.row sessionId) = some leases) :
      Move (.activate sessionId l) t
        { t with
          leases, sessions := t.sessions.modify sessionId (.activated l) (activated_id l) }
  | renew {t : Authority} {sessionId : String} {expectedEpoch : ℤ} {l : Lease} {s : Session}
      {leases : Table LeaseRow.leaseId} (hfind : t.sessions.find sessionId = some s)
      (hrenewable : renewable t expectedEpoch l s)
      (hinsert : (endLeases t sessionId .superseded).insert (l.row sessionId) = some leases) :
      Move (.renew sessionId expectedEpoch l) t
        { t with leases, sessions := t.sessions.modify sessionId (.leased l) (leased_id l) }
  | finish {t : Authority} {op : Op} {s : Session} (hop : op.Finishes s.sessionId)
      (hfind : t.sessions.find s.sessionId = some s) : Move op t (finish t s)
  | fence {t : Authority} {now : ℤ} {idleBefore : Option ℤ} {locked : String → Bool} {dbNow : ℤ}
      {event number : ℕ} {s : Session} {outbox : Table OutboxRow.eventId}
      (hfind : t.sessions.find s.sessionId = some s)
      (hinsert : t.outbox.insert ⟨number, s.sessionId, dbNow, none⟩ = some outbox) :
      Move (.reclaim now idleBefore locked dbNow event) t { finish t s with outbox }
  | completeReclaim {t : Authority} (sessionId : String) (dbNow : ℤ) :
      Move (.completeReclaim sessionId dbNow) t (completeReclaim t sessionId dbNow)
  | drain {t t' : Authority} {hostId : String} {affected : List Session}
      (hdrain : drain t hostId = .ok (affected, t')) : Move (.drain hostId) t t'

variable {t t' : Authority} {timeout expiresAt dbNow now : ℤ} {P : Authority → Prop}
  {x : Except StoreError Authority} {claimId n n' event : ℕ} {sid : String} {s s' : Session} {l : Lease}
  {epoch idle : Option ℤ} {found : Option Session}

lemma commit_ok {α : Type} {answer : α → Answer} {x : Except StoreError (α × Authority)} (h0 : P t)
    (h : ∀ a t', x = .ok (a, t') → P t') : P (commit t answer x).2 := by
  cases x with
  | error e => exact h0
  | ok p => exact h p.1 p.2 rfl

lemma commit_done (h0 : P t) (h : ∀ t', x = .ok t' → P t') : P (commit t (fun _ => .done) (x.map ((), ·))).2 := by
  cases x with
  | error e => exact h0
  | ok t' => exact h t' rfl

lemma done_ok (h : (commit t (fun _ => .done) (x.map ((), ·))).1 = .done) : ∃ t', x = .ok t' := by
  cases x with
  | error e => cases h
  | ok t' => exact ⟨t', rfl⟩

variable {hostId : String}

lemma claimReadySlot_eq_ok {picked : Option (String × String)} {found : Option (Slot × ClaimRow)}
    (h : claimReadySlot t timeout dbNow picked claimId expiresAt = .ok (found, t')) :
    t' = t ∨ ∃ r f, takeSlot t r claimId expiresAt = .ok (f, t') := by
  unfold claimReadySlot at h
  split at h
  · cases h
    exact .inl rfl
  obtain ⟨⟨f, u⟩, ht, hr⟩ := bind_eq_ok.mp h
  cases hr
  exact .inr ⟨_, f, ht⟩

lemma createSession_eq_ok (h : createSession t s dbNow = .ok t') :
    validClaim t s dbNow ∧ (∀ old, t.sessions.find s.sessionId = some old → ¬old.state.live) ∧
      t' = { t with sessions := t.sessions.upsert s.bound s.takeOver s.takeOver_id } := by
  simp only [createSession, bind_refuse, pure_eq_ok, not_or, not_not] at h
  obtain ⟨⟨hv, hf⟩, rfl⟩ := h
  refine ⟨hv, ?_, rfl⟩
  intro old hold hl
  exact hf (by rw [hold]; exact hl)

lemma activate_eq_ok (h : activate t sid l = .ok t') :
    ∃ s leases, t.sessions.find sid = some s ∧ activatable t l s ∧
      t.leases.insert (l.row sid) = some leases ∧
        t' = { t with
          leases, sessions := t.sessions.modify sid (.activated l) (activated_id l) } := by
  simp only [activate, bind_refuse, bind_demand, pure_eq_ok, not_not] at h
  obtain ⟨ha, leases, hi, rfl⟩ := h
  obtain ⟨s, hf, hs⟩ := (any_eq_true _ _).mp ha
  exact ⟨s, leases, hf, hs, hi, rfl⟩

lemma renew_eq_ok {epoch : ℤ} (h : renew t sid epoch l = .ok t') :
    ∃ s leases, t.sessions.find sid = some s ∧ renewable t epoch l s ∧
      (endLeases t sid .superseded).insert (l.row sid) = some leases ∧
        t' = { t with
          leases, sessions := t.sessions.modify sid (.leased l) (leased_id l) } := by
  simp only [renew, bind_refuse, bind_demand, pure_eq_ok, not_not] at h
  obtain ⟨ha, leases, hi, rfl⟩ := h
  obtain ⟨s, hf, hs⟩ := (any_eq_true _ _).mp ha
  exact ⟨s, leases, hf, hs, hi, rfl⟩

lemma finishSession_eq_ok (h : finishSession t sid epoch = .ok (found, t')) :
    (t.sessions.find sid = none ∧ found = none ∧ t' = t) ∨
      ∃ s, t.sessions.find sid = some s ∧ s.sessionId = sid ∧ found = some s.invalidate ∧ t' = finish t s := by
  unfold finishSession at h
  split at h
  next hf =>
    cases h
    exact .inl ⟨hf, rfl, rfl⟩
  next s hf =>
    obtain ⟨-, hr⟩ := bind_refuse.mp h
    cases hr
    exact .inr ⟨s, hf, find_key hf, rfl, rfl⟩

lemma fence_eq_ok (h : fence dbNow (t, n) sid = .ok (t', n')) :
    (t.sessions.find sid = none ∧ t' = t ∧ n' = n) ∨
      ∃ s outbox, t.sessions.find sid = some s ∧ s.sessionId = sid ∧
        t.outbox.insert ⟨n, sid, dbNow, none⟩ = some outbox ∧ t' = { finish t s with outbox } ∧ n' = n + 1 := by
  obtain ⟨⟨found, u⟩, hf, h⟩ := bind_eq_ok.mp h
  rcases finishSession_eq_ok hf with ⟨hn, rfl, rfl⟩ | ⟨s, hfn, hid, rfl, rfl⟩
  · cases h
    exact .inl ⟨hn, rfl, rfl⟩
  obtain ⟨outbox, hi, hr⟩ := bind_demand.mp h
  cases hr
  exact .inr ⟨s, outbox, hfn, hid, hi, rfl, rfl⟩

lemma heartbeat_eq_ok (h : heartbeat t hostId now = .ok t') :
    t' = { t with hosts := t.hosts.modify hostId (.beat now) (HostRow.beat_id now) } := by
  simp only [heartbeat, bind_refuse, pure_eq_ok] at h
  exact h.2.symm

variable {op : Op}

lemma move_of_takeSlot {r : SlotRow} {found : Slot × ClaimRow}
    (hop : op.Claims claimId) (h : takeSlot t r claimId expiresAt = .ok (found, t')) : Move op t t' := by
  simp only [takeSlot, bind_refuse, bind_demand] at h
  obtain ⟨hin, claims, hi, host, -, -, rfl⟩ := h
  refine .claim hop ?_ hi
  intro c hc ha hp
  apply hin
  exact List.any_eq_true.mpr ⟨c, hc, by simp [ha, hp]⟩

lemma move_of_finishSession (hop : op.Finishes sid)
    (h : finishSession t sid epoch = .ok (found, t')) : ReflGen (Move op) t t' := by
  rcases finishSession_eq_ok h with ⟨-, -, rfl⟩ | ⟨s, hf, rfl, -, rfl⟩
  · exact .refl
  · exact .single (.finish hop hf)

lemma moves_of_fences {locked : String → Bool} {ids : List String}
    (h : ids.foldlM (fence dbNow) (t, n) = .ok (t', n')) :
    ReflTransGen (Move (.reclaim now idle locked dbNow event)) t t' := by
  induction ids generalizing t n with
  | nil =>
    cases h
    exact .refl
  | cons id ids ih =>
    obtain ⟨⟨u, m⟩, hf, hr⟩ := bind_eq_ok.mp h
    rcases fence_eq_ok hf with ⟨-, rfl, rfl⟩ | ⟨s, outbox, hfn, rfl, hi, rfl, rfl⟩
    · exact ih hr
    · exact .head (.fence hfn hi) (ih hr)

def Op.reclaims : Op → Bool
  | .reclaim .. => true
  | _ => false

lemma apply_moves (t : Authority) (timeout : ℤ) (op : Op) :
    ReflGen (Move op) t (apply t timeout op).2 ∨ op.reclaims ∧
      ReflTransGen (Move op) t (apply t timeout op).2 := by
  cases op with
  | reclaim now idle locked dbNow event =>
    refine .inr ⟨rfl, commit_ok .refl ?_⟩
    intro found t' h
    obtain ⟨⟨u, n⟩, hfl, hr⟩ := bind_eq_ok.mp h
    cases hr
    exact moves_of_fences hfl
  | registerHost hostId endpoint slotIds dbNow => exact .inl (.single (.registerHost _ _ _ _))
  | setReadiness hostId slotId ready code runtime =>
    refine .inl (commit_ok .refl ?_)
    intro slot t' h
    simp only [setReadiness, bind_refuse, bind_demand] at h
    obtain ⟨-, -, -, -, rfl⟩ := h
    exact .single (.setReadiness _ _ _ _ _)
  | heartbeat hostId dbNow =>
    refine .inl (commit_done .refl ?_)
    intro t' h
    rw [heartbeat_eq_ok h]
    exact .single (.heartbeat _ _)
  | claimSlot dbNow hostId slotId expectedVersion claimId expiresAt =>
    refine .inl (commit_ok .refl ?_)
    intro found t' h
    obtain ⟨r, -, ht⟩ := bind_demand.mp h
    exact .single (move_of_takeSlot (.slot _ _ _ _ _ _) ht)
  | claimReadySlot dbNow picked claimId expiresAt =>
    refine .inl (commit_ok .refl ?_)
    intro found t' h
    rcases claimReadySlot_eq_ok h with rfl | ⟨r, f, ht⟩
    · exact .refl
    · exact .single (move_of_takeSlot (.ready _ _ _ _) ht)
  | abortClaim claimId =>
    refine .inl ?_
    by_cases ha : ∃ c, t.claims.find claimId = some c ∧ c.state = .active
    · obtain ⟨c, hf, ha⟩ := ha
      exact .single (.abortClaim hf ha)
    · have hs : abortClaim t claimId = t := by
        unfold abortClaim
        split
        · rfl
        rename_i c hc
        obtain ⟨hf, hc⟩ := filter_eq_some_iff.mp hc
        exact absurd ⟨c, hf, of_decide_eq_true hc⟩ ha
      simp only [apply, hs]
      exact .refl
  | createSession s dbNow =>
    refine .inl (commit_done .refl ?_)
    intro t' h
    obtain ⟨hv, hfr, rfl⟩ := createSession_eq_ok h
    exact .single (.createSession hv hfr)
  | activate sid l =>
    refine .inl (commit_done .refl ?_)
    intro t' h
    obtain ⟨s, leases, hf, hact, hi, rfl⟩ := activate_eq_ok h
    exact .single (.activate hf hact hi)
  | renew sid epoch l =>
    refine .inl (commit_done .refl ?_)
    intro t' h
    obtain ⟨s, leases, hf, hren, hi, rfl⟩ := renew_eq_ok h
    exact .single (.renew hf hren hi)
  | release sid =>
    refine .inl (commit_ok .refl ?_)
    intro found t' h
    exact move_of_finishSession (.release _) h
  | invalidate sid epoch =>
    refine .inl (commit_ok .refl ?_)
    intro found t' h
    exact move_of_finishSession (.invalidate _ _) h
  | completeReclaim sid dbNow => exact .inl (.single (.completeReclaim _ _))
  | drain hostId =>
    refine .inl (commit_ok .refl ?_)
    intro affected t' h
    exact .single (.drain h)
  | getSession | getSlot | getClaim => exact .inl .refl

lemma apply_induction {I : Authority → Prop} (h0 : I t)
    (hmv : ∀ u u', (u = t ∨ op.reclaims) → I u → Move op u u' → I u') : I (apply t timeout op).2 := by
  rcases apply_moves t timeout op with hm | ⟨hop, hm⟩
  · generalize (apply t timeout op).2 = t' at hm
    cases hm with
    | refl => exact h0
    | single hl => exact hmv t t' (.inl rfl) h0 hl
  · generalize (apply t timeout op).2 = t' at hm
    induction hm with
    | refl => exact h0
    | tail _ hl ih => exact hmv _ _ (.inr hop) ih hl

structure Session.Follows (s' s : Session) : Prop where
  session : s'.sessionId = s.sessionId
  assignment : s'.assignmentId = s.assignmentId
  claim : s'.claimId = s.claimId
  place : s'.place = s.place
  live : s'.state.live → s.state.live

lemma Session.Follows.refl (s : Session) : s.Follows s := ⟨rfl, rfl, rfl, rfl, id⟩

lemma Session.Follows.trans {s'' : Session} (h' : s''.Follows s') (h : s'.Follows s) : s''.Follows s where
  session := h'.session.trans h.session
  assignment := h'.assignment.trans h.assignment
  claim := h'.claim.trans h.claim
  place := h'.place.trans h.place
  live hl := h.live (h'.live hl)

lemma Session.invalidate_follows (s : Session) : s.invalidate.Follows s :=
  ⟨rfl, rfl, rfl, rfl, fun hl => by cases hl⟩

lemma mem_created {r : Session} (h : r ∈ (t.sessions.upsert s.bound s.takeOver s.takeOver_id).rows) :
    (∃ a, r = { s.bound with lastActivityAt := a }) ∨ r ∈ t.sessions.rows ∧ r.sessionId ≠ s.sessionId := by
  rcases mem_upsert h with rfl | ⟨hr, hne⟩
  · cases hf : t.sessions.find s.bound.sessionId with
    | none => exact .inl ⟨none, rfl⟩
    | some old =>
      have hid : old.sessionId = s.sessionId := find_key hf
      exact .inl ⟨old.lastActivityAt, by rw [elim_some, takeOver, hid]; rfl⟩
  · exact .inr ⟨hr, hne⟩

lemma follows_updateWhere {f : Session → Session} {q : Session → Bool} {sessions : Table sessionId}
    (hf : ∀ s, (f s).sessionId = s.sessionId) (hfl : ∀ s ∈ sessions.rows, q s → (f s).Follows s) :
    ∀ s' ∈ (sessions.updateWhere q f hf).rows, ∃ s ∈ sessions.rows, s'.Follows s := by
  refine (forall_updateWhere (P := fun s' => ∃ s ∈ sessions.rows, s'.Follows s) hf).mpr ?_
  intro s hs
  exact ⟨fun hq => ⟨s, hs, hfl s hs hq⟩, fun _ => ⟨s, hs, .refl s⟩⟩

def Descends (t : Authority) (op : Op) (s' : Session) : Prop :=
  (∃ s ∈ t.sessions.rows, s'.Follows s) ∨ ∃ s dbNow, op = .createSession s dbNow ∧ s'.Follows s.bound

lemma sessions_of_move (h : Move op t t') : ∀ s' ∈ t'.sessions.rows, Descends t op s' := by
  have hs : ∀ s' ∈ t.sessions.rows, Descends t op s' := fun s' hs' => .inl ⟨s', hs', .refl s'⟩
  cases h with
  | setReadiness | heartbeat | claim => exact hs
  | registerHost | finish | fence =>
    intro s' hs'
    exact .inl (follows_updateWhere invalidate_id (fun s _ _ => s.invalidate_follows) s' hs')
  | abortClaim hf hac =>
    rename_i c claimId
    have hfl : (t.claims.find claimId).filter (fun c => c.state = .active) = some c := by
      simp [hf, hac]
    simp only [abortClaim, hfl]
    exact hs
  | createSession hv hfr =>
    intro s' hs'
    rcases mem_created hs' with ⟨a, rfl⟩ | ⟨hs', -⟩
    · exact .inr ⟨_, _, rfl, rfl, rfl, rfl, rfl, id⟩
    · exact hs s' hs'
  | activate hf ha hi =>
    rename_i sid l s leases
    refine (forall_modify (P := Descends t _) (activated_id l)).mpr ?_
    intro r hr
    refine ⟨fun hid => .inl ⟨r, hr, rfl, rfl, rfl, rfl, fun _ => ?_⟩, fun _ => hs r hr⟩
    obtain rfl : r = s := t.sessions.eq_of_key hr (mem_of_find hf) (hid.trans (find_key hf).symm)
    simp only [activatable, Bool.and_eq_true, decide_eq_true_eq] at ha
    rw [ha.1.1]
    rfl
  | renew hf hrn hi =>
    rename_i sid epoch l s leases
    refine (forall_modify (P := Descends t _) (leased_id l)).mpr ?_
    intro r hr
    exact ⟨fun _ => .inl ⟨r, hr, rfl, rfl, rfl, rfl, id⟩, fun _ => hs r hr⟩
  | completeReclaim sid dbNow =>
    unfold completeReclaim
    split <;> exact hs
  | drain hd =>
    simp only [drain, bind_refuse] at hd
    obtain ⟨-, -, rfl⟩ := hd
    refine fun s' hs' => .inl (follows_updateWhere drain_id ?_ s' hs')
    intro s _ hq
    simp only [Bool.and_eq_true, decide_eq_true_eq] at hq
    exact ⟨rfl, rfl, rfl, rfl, fun _ => by rw [hq.2]; rfl⟩

lemma apply_sessions (t : Authority) (timeout : ℤ) (op : Op) :
    ∀ s' ∈ (apply t timeout op).2.sessions.rows, Descends t op s' := by
  apply apply_induction (I := fun u => ∀ s' ∈ u.sessions.rows, Descends t op s')
  · exact fun s' hs' => .inl ⟨s', hs', .refl s'⟩
  intro u u' hu hI hm s'' hs''
  rcases sessions_of_move hm s'' hs'' with ⟨s', hs', hf'⟩ | hc
  · rcases hu with rfl | hr
    · exact .inl ⟨s', hs', hf'⟩
    · rcases hI s' hs' with ⟨s, hs, hf⟩ | ⟨s, dbNow, rfl, -⟩
      · exact .inl ⟨s, hs, hf'.trans hf⟩
      · cases hr
  · exact .inr hc

end LeafWeb.Executor
