import LeafWeb.Executor.Exclusive

namespace LeafWeb.Executor

open Lib Transition Table List Bool Session

structure Fenced (sessions : Table sessionId) (leases : Table LeaseRow.leaseId) : Prop where
  named : ∀ l ∈ leases.rows, l.state = .active → ∃ s ∈ sessions.rows,
    s.sessionId = l.sessionId ∧ s.state.serving ∧ s.leaseId = some l.leaseId ∧
      s.bindingEpoch = l.bindingEpoch ∧ s.leaseSequence = l.leaseSequence
  held : ∀ s ∈ sessions.rows, s.state.serving → ∃ l ∈ leases.rows, l.sessionId = s.sessionId ∧ l.state = .active
  fresh : ∀ s ∈ sessions.rows, s.state = .binding → ∀ l ∈ leases.rows, l.sessionId = s.sessionId →
    l.bindingEpoch ≠ s.bindingEpoch
  bounded : ∀ s ∈ sessions.rows, ∀ l ∈ leases.rows, l.sessionId = s.sessionId →
    l.bindingEpoch = s.bindingEpoch → l.leaseSequence ≤ s.leaseSequence
  rising : leases.rows.Pairwise fun l l' => l.sessionId = l'.sessionId →
    l.bindingEpoch = l'.bindingEpoch → l.leaseSequence < l'.leaseSequence

/-- What the store leaves to its callers: a host that registers again serves nothing, a binding has an
epoch of its own, and a renewed lease carries the epoch it is renewed under. -/
def FencingKept (t : Authority) : Op → Prop
  | .registerHost hostId _ _ _ => ∀ s ∈ t.sessions.rows, s.executorId = hostId → ¬s.state.serving
  | .createSession s _ => ∀ l ∈ t.leases.rows, l.sessionId = s.sessionId →
    l.bindingEpoch ≠ s.bindingEpoch
  | .renew _ expectedEpoch l => l.bindingEpoch = expectedEpoch
  | _ => True

variable {t t' : Authority}

lemma fenced_empty : Fenced .empty .empty where
  named l hl := by cases hl
  held s hs := by cases hs
  fresh s hs := by cases hs
  bounded s hs := by cases hs
  rising := Pairwise.nil

variable {s : Session} {leases leases' : Table LeaseRow.leaseId} {sessions sessions' : Table sessionId}

lemma serving_of_active (h : s.state = .active) : s.state.serving := by
  rw [h]
  rfl

variable {p : LeaseRow → Bool} (state : LeaseState)

-- What is asked of leases in `fresh`, `bounded` and `rising` does not look at their states.
lemma forall_close {P : LeaseRow → Prop} (hP : ∀ l, P l → P (l.close state)) (h : ∀ l ∈ leases.rows, P l) :
    ∀ l ∈ (leases.updateWhere p (.close state) (LeaseRow.close_id state)).rows, P l :=
  (forall_updateWhere _).mpr fun l hl => ⟨fun _ => hP l (h l hl), fun _ => h l hl⟩

section

variable (h : Fenced sessions leases)
include h

lemma Fenced.closed {l : LeaseRow} (hs : s ∈ sessions.rows) (hsr : ¬s.state.serving) (hl : l ∈ leases.rows)
    (hid : l.sessionId = s.sessionId) : l.state ≠ .active := by
  intro ha
  obtain ⟨s', hs', hid', hsr', -⟩ := h.named l hl ha
  rw [sessions.eq_of_key hs' hs (hid'.trans hid)] at hsr'
  exact hsr hsr'

lemma Fenced.touch (hsn : ∀ s' ∈ sessions'.rows, ∃ s ∈ sessions.rows, s'.sessionId = s.sessionId ∧
      s'.bindingEpoch = s.bindingEpoch ∧ s'.leaseSequence = s.leaseSequence ∧
        (s'.state = .binding → s.state = .binding) ∧ (s'.state.serving → s.state.serving))
    (hk : ∀ s ∈ sessions.rows, s.state.serving → ∃ s' ∈ sessions'.rows,
      s'.sessionId = s.sessionId ∧ s'.leaseId = s.leaseId ∧ s'.state.serving) :
    Fenced sessions' leases where
  named l hl ha := by
    obtain ⟨s, hs, hid, hsr, hls, he, hsq⟩ := h.named l hl ha
    obtain ⟨s', hs', hid', hls', hsr'⟩ := hk s hs hsr
    obtain ⟨s₀, hs₀, hid₀, he₀, hsq₀, -⟩ := hsn s' hs'
    have hsm : s₀ = s := sessions.eq_of_key hs₀ hs (hid₀.symm.trans hid')
    rw [hsm] at he₀ hsq₀
    exact ⟨s', hs', hid'.trans hid, hsr', hls'.trans hls, he₀.trans he, hsq₀.trans hsq⟩
  held s' hs' hsr := by
    obtain ⟨s, hs, hid, -, -, -, hsr'⟩ := hsn s' hs'
    rw [hid]
    exact h.held s hs (hsr' hsr)
  fresh s' hs' hb := by
    obtain ⟨s, hs, hid, he, -, hb', -⟩ := hsn s' hs'
    rw [hid, he]
    exact h.fresh s hs (hb' hb)
  bounded s' hs' := by
    obtain ⟨s, hs, hid, he, hsq, -⟩ := hsn s' hs'
    rw [hid, he, hsq]
    exact h.bounded s hs
  rising := h.rising

lemma Fenced.rising_close :
    (leases.updateWhere p (.close state) (LeaseRow.close_id state)).rows.Pairwise fun l l' =>
      l.sessionId = l'.sessionId → l.bindingEpoch = l'.bindingEpoch → l.leaseSequence < l'.leaseSequence := by
  refine pairwise_map.mpr (h.rising.imp ?_)
  intro l l' hr
  split_ifs <;> exact hr

lemma Fenced.issue {f : Session → Session} {l : Lease}
    (hf : ∀ s, (f s).sessionId = s.sessionId) (hs : s ∈ sessions.rows) (hep : l.bindingEpoch = s.bindingEpoch)
    (hab : ∀ r ∈ leases.rows, r.sessionId = s.sessionId → r.bindingEpoch = s.bindingEpoch →
      r.leaseSequence < l.sequence)
    (hp : ∀ r ∈ leases.rows, r.state = .active → (p r ↔ r.sessionId = s.sessionId))
    (hm : (f s).leaseId = some l.leaseId ∧ (f s).bindingEpoch = s.bindingEpoch ∧
      (f s).leaseSequence = l.sequence ∧ (f s).state = .active)
    (hi : (leases.updateWhere p (.close .superseded) (LeaseRow.close_id .superseded)).insert (l.row s.sessionId) =
      some leases') :
    Fenced (sessions.modify s.sessionId f hf) leases' := by
  obtain ⟨hl, hk, hsq, hst⟩ := hm
  have hsm : ∀ r ∈ sessions.rows, r.sessionId = s.sessionId → r = s := fun r hr hid =>
    sessions.eq_of_key hr hs hid
  constructor
  · refine (forall_insert hi).mpr ⟨(forall_updateWhere (LeaseRow.close_id .superseded)).mpr fun r hr =>
      ⟨fun _ => nofun, fun hnp ha => ?_⟩, fun _ => ?_⟩
    · obtain ⟨s', hs', hid, hrt⟩ := h.named r hr ha
      have hne : s'.sessionId ≠ s.sessionId := fun he => hnp ((hp r hr ha).mpr (hid.symm.trans he))
      exact ⟨s', mem_map.mpr ⟨s', hs', if_neg hne⟩, hid, hrt⟩
    · exact ⟨f s, mem_map.mpr ⟨s, hs, if_pos rfl⟩, hf s, serving_of_active hst, hl, hk.trans hep.symm, hsq⟩
  · refine (forall_modify hf).mpr fun r hr => ⟨fun hid _ => ?_, fun hne hsr => ?_⟩
    · exact ⟨l.row s.sessionId, (mem_insert hi).mpr (.inr rfl), hid.symm.trans (hf r).symm, rfl⟩
    · obtain ⟨r', hr', hid, ha⟩ := h.held r hr hsr
      have hnp : ¬p r' := fun hpr => hne (hid.symm.trans ((hp r' hr' ha).mp hpr))
      exact ⟨r', (mem_insert hi).mpr (.inl (mem_updateWhere.mpr ⟨r', hr', if_neg hnp⟩)), hid, ha⟩
  · refine (forall_modify hf).mpr fun r hr => ⟨fun hid hb => ?_, fun hne hb => ?_⟩
    · rw [hsm r hr hid, hst] at hb
      cases hb
    · exact (forall_insert hi).mpr ⟨forall_close _ (fun _ => id) (h.fresh r hr hb), fun hid => absurd hid.symm hne⟩
  · refine (forall_modify hf).mpr fun r hr => ⟨fun hid => ?_, fun hne => ?_⟩
    · rw [hsm r hr hid, hf, hk, hsq]
      exact (forall_insert hi).mpr ⟨forall_close _ (fun _ => id) fun r' hr' hid' he => (hab r' hr' hid' he).le,
        fun _ _ => le_rfl⟩
    · exact (forall_insert hi).mpr ⟨forall_close _ (fun _ => id) (h.bounded r hr), fun hid => absurd hid.symm hne⟩
  · rw [(insert_rows hi).1, pairwise_append]
    refine ⟨h.rising_close _, pairwise_singleton _ _, fun r hr r' hr' => ?_⟩
    rw [mem_singleton.mp hr']
    exact forall_close _ (P := fun r => r.sessionId = s.sessionId → r.bindingEpoch = l.bindingEpoch →
      r.leaseSequence < l.sequence) (fun _ => id) (fun r hr hid he => hab r hr hid (he.trans hep)) r hr

end

section

variable (h : Fenced t.sessions t.leases)
include h

lemma Fenced.finish (s : Session) : Fenced (finish t s).sessions (finish t s).leases where
  named := by
    refine (forall_updateWhere (LeaseRow.close_id .revoked)).mpr fun l hl => ⟨fun _ => nofun, fun hop ha => ?_⟩
    obtain ⟨s', hs', hid, hrs⟩ := h.named l hl ha
    have ho : ¬decide (s'.sessionId = s.sessionId) = true := by simpa [ha, hid] using hop
    exact ⟨s', mem_map.mpr ⟨s', hs', if_neg ho⟩, hid, hrs⟩
  held := by
    refine (forall_updateWhere invalidate_id).mpr fun s' hs' => ⟨fun _ => nofun, fun ho hs => ?_⟩
    obtain ⟨l, hl, hid, ha⟩ := h.held s' hs' hs
    have hop : ¬(decide (l.sessionId = s.sessionId) && decide (l.state = .active)) = true := by
      simpa [ha, hid] using ho
    exact ⟨l, mem_map.mpr ⟨l, hl, if_neg hop⟩, hid, ha⟩
  fresh := (forall_updateWhere invalidate_id).mpr fun s' hs' =>
    ⟨fun _ => nofun, fun _ hb => forall_close .revoked (fun _ => id) (h.fresh s' hs' hb)⟩
  bounded := by
    refine (forall_updateWhere invalidate_id).mpr fun s' hs' => ⟨fun _ => ?_, fun _ => ?_⟩
    all_goals exact forall_close .revoked (fun _ => id) (h.bounded s' hs')
  rising := h.rising_close .revoked

lemma Fenced.registerHost {hostId : String}
    (hi : ∀ s ∈ t.sessions.rows, s.executorId = hostId → ¬s.state.serving) (endpoint : String)
    (slotIds : List String) (now : ℤ) :
    Fenced (registerHost t hostId endpoint slotIds now).2.sessions
      (registerHost t hostId endpoint slotIds now).2.leases := by
  apply h.touch
  · refine (forall_updateWhere invalidate_id).mpr fun s hs => ⟨fun _ => ?_, fun _ => ?_⟩
    · exact ⟨s, hs, rfl, rfl, rfl, (fun hs => by cases hs), (fun hs => by cases hs)⟩
    · exact ⟨s, hs, rfl, rfl, rfl, id, id⟩
  intro s hs hsr
  refine ⟨s, mem_map.mpr ⟨s, hs, if_neg ?_⟩, rfl, rfl, hsr⟩
  intro hq
  simp only [and_eq_true, decide_eq_true_eq] at hq
  exact hi s hs hq.1 hsr

lemma Fenced.createSession (hfr : ∀ old, t.sessions.find s.sessionId = some old → ¬old.state.live)
    (hep : ∀ l ∈ t.leases.rows, l.sessionId = s.sessionId → l.bindingEpoch ≠ s.bindingEpoch) :
    Fenced (t.sessions.upsert s.bound s.takeOver s.takeOver_id) t.leases where
  named l hl ha := by
    obtain ⟨s', hs', hid, hs, hrs⟩ := h.named l hl ha
    have hf' : t.sessions.find s'.sessionId = some s' := find_some.mpr ⟨hs', rfl⟩
    have hne : s'.sessionId ≠ s.sessionId := by
      intro he
      exact hfr s' (he ▸ hf') (live_of_serving hs)
    have hf := find_upsert (t := t.sessions) s.takeOver_id s.bound s'.sessionId
    exact ⟨s', mem_of_find (hf.trans ((if_neg hne).trans hf')), hid, hs, hrs⟩
  held r hr hs := by
    rcases mem_created hr with ⟨a, rfl⟩ | ⟨hr, -⟩
    · cases hs
    · exact h.held r hr hs
  fresh r hr hb := by
    rcases mem_created hr with ⟨a, rfl⟩ | ⟨hr, -⟩
    · exact hep
    · exact h.fresh r hr hb
  bounded r hr l hl hid he := by
    rcases mem_created hr with ⟨a, rfl⟩ | ⟨hr, -⟩
    · exact absurd he (hep l hl hid)
    · exact h.bounded r hr l hl hid he
  rising := h.rising

variable {timeout : ℤ} {op : Op}

lemma Fenced.move (hop : FencingKept t op) (hm : Move op t t') : Fenced t'.sessions t'.leases := by
  cases hm with
  | registerHost hostId endpoint slotIds now => exact h.registerHost hop endpoint slotIds now
  | setReadiness | heartbeat | claim => exact h
  | abortClaim hf hac =>
    unfold abortClaim
    split <;> exact h
  | createSession hv hh => exact h.createSession hh hop
  | activate hf ha hi =>
    rename_i sid l s leases
    obtain ⟨hs, rfl⟩ := find_some.mp hf
    simp only [activatable, and_eq_true, decide_eq_true_eq] at ha
    obtain ⟨⟨hbn, hep⟩, -⟩ := ha
    have hfr := h.fresh s hs hbn
    have hil : ¬s.state.serving := by
      rw [hbn]
      decide
    rw [← updateWhere_none (t := t.leases) (LeaseRow.close_id .superseded)] at hi
    refine h.issue (activated_id l) hs hep.symm ?_ ?_ ⟨rfl, rfl, rfl, rfl⟩ hi
    · exact fun r hr hid he => absurd he (hfr r hr hid)
    · intro r hr hac
      exact ⟨(fun hn => by cases hn), fun hid => absurd hac (h.closed hs hil hr hid)⟩
  | renew hf hrn hi =>
    rename_i sid expectedEpoch l s leases
    obtain ⟨hs, rfl⟩ := find_some.mp hf
    simp only [renewable, and_eq_true, decide_eq_true_eq] at hrn
    obtain ⟨⟨⟨hac, hep⟩, hlt⟩, -⟩ := hrn
    have hop' : l.bindingEpoch = expectedEpoch := hop
    refine h.issue (leased_id l) hs (hop'.trans hep.symm) ?_ ?_ ⟨rfl, rfl, rfl, hac⟩ hi
    · exact fun r hr hid he => (h.bounded s hs r hr hid he).trans_lt hlt
    · intro r hr hr'
      simp [hr']
  | finish _ hf => exact h.finish _
  | fence hf _ => exact h.finish _
  | completeReclaim sid dbNow =>
    unfold completeReclaim
    split <;> exact h
  | drain hd =>
    simp only [drain, bind_refuse] at hd
    obtain ⟨-, -, rfl⟩ := hd
    apply h.touch
    · refine (forall_updateWhere drain_id).mpr fun s hs => ⟨fun hq => ?_, fun _ => ?_⟩
      · simp only [and_eq_true, decide_eq_true_eq] at hq
        exact ⟨s, hs, rfl, rfl, rfl, (fun hb => by cases hb), fun _ => serving_of_active hq.2⟩
      · exact ⟨s, hs, rfl, rfl, rfl, id, id⟩
    · intro s hs hsr
      refine ⟨_, mem_map.mpr ⟨s, hs, rfl⟩, ?_⟩
      split_ifs
      · exact ⟨rfl, rfl, rfl⟩
      · exact ⟨rfl, rfl, hsr⟩

lemma Fenced.apply (hop : FencingKept t op) :
    Fenced (apply t timeout op).2.sessions (apply t timeout op).2.leases := by
  refine apply_induction (I := fun u => Fenced u.sessions u.leases) h ?_
  rintro u u' hf hu hm
  refine hu.move ?_ hm
  rcases hf with rfl | hr
  · exact hop
  cases op with
  | reclaim => trivial
  | _ => cases hr

end

theorem lease_fencing (timeout : ℤ) (ops : List Op) (h : Along (fun t => apply t timeout) FencingKept .empty ops) :
    let t := after (fun t => apply t timeout) .empty ops
    (∀ l ∈ t.leases.rows, ∀ l' ∈ t.leases.rows, l.state = .active → l'.state = .active →
      l.sessionId = l'.sessionId → l = l') ∧
    (∀ s ∈ t.sessions.rows, s.state = .invalid → ∀ l ∈ t.leases.rows, l.sessionId = s.sessionId →
      l.state ≠ .active) ∧
    (∀ s ∈ t.sessions.rows, s.state = .active → ∃ l ∈ t.leases.rows, l.sessionId = s.sessionId ∧
      l.state = .active ∧ s.leaseId = some l.leaseId ∧ l.bindingEpoch = s.bindingEpoch ∧
        l.leaseSequence = s.leaseSequence) ∧
    t.leases.rows.Pairwise fun l l' => l.sessionId = l'.sessionId → l.bindingEpoch = l'.bindingEpoch →
      l.leaseSequence < l'.leaseSequence := by
  intro t
  have hinv : Fenced t.sessions t.leases := by
    refine invariant_along (I := fun t : Authority => Fenced t.sessions t.leases) fenced_empty ?_ ops h
    intro u op hu hop
    exact hu.apply hop
  refine ⟨?_, ?_, ?_, hinv.rising⟩
  · intro l hl l' hl' ha ha' hid
    obtain ⟨s, hs, hsid, -, hls, -⟩ := hinv.named l hl ha
    obtain ⟨s', hs', hsid', -, hls', -⟩ := hinv.named l' hl' ha'
    rw [t.sessions.eq_of_key hs hs' (by rw [hsid, hsid', hid]), hls'] at hls
    exact t.leases.eq_of_key hl hl' (Option.some.inj hls).symm
  · intro s hs hi l hl hid
    refine hinv.closed hs ?_ hl hid
    rw [hi]
    decide
  · intro s hs ha
    obtain ⟨l, hl, hid, hl'⟩ := hinv.held s hs (serving_of_active ha)
    obtain ⟨s', hs', hid', -, hls, he, hsq⟩ := hinv.named l hl hl'
    rw [t.sessions.eq_of_key hs' hs (hid'.trans hid)] at hls he hsq
    exact ⟨l, hl, hid, hl', hls, he.symm, hsq.symm⟩

instance (t : Authority) : (op : Op) → Decidable (FencingKept t op)
  | .registerHost .. => inferInstanceAs (Decidable (∀ s ∈ t.sessions.rows, _ → ¬_))
  | .createSession .. => inferInstanceAs (Decidable (∀ l ∈ t.leases.rows, _ → _ ≠ _))
  | .renew .. => inferInstanceAs (Decidable (_ = _))
  | .setReadiness .. | .heartbeat .. | .claimSlot .. | .claimReadySlot .. | .abortClaim .. | .activate ..
  | .release .. | .invalidate .. | .reclaim .. | .completeReclaim .. | .drain .. | .getSession ..
  | .getSlot .. | .getClaim .. => isTrue trivial

def renewedOnce : List Op := oneSession ++ [.renew "first" 1 { Lease.onSlot 3 1 with sequence := 2 }]

theorem renewed_lease_named :
    Along (fun t => apply t 30) FencingKept .empty renewedOnce ∧
      (after (fun t => apply t 30) .empty renewedOnce).leases.rows.Pairwise fun l l' =>
        l.sessionId = l'.sessionId → l.bindingEpoch = l'.bindingEpoch → l.leaseSequence < l'.leaseSequence := by
  have h : Along (fun t => apply t 30) FencingKept .empty renewedOnce := by decide +kernel
  exact ⟨h, (lease_fencing 30 renewedOnce h).2.2.2⟩

theorem reregistered_host_keeps_lease :
    let t := after (fun t => apply t 30) .empty
      (oneSession ++ [.registerHost "host" "https://10.0.0.1:8088" ["slot-1"] 1])
    ∃ s ∈ t.sessions.rows, s.state = .invalid ∧
      ∃ l ∈ t.leases.rows, l.sessionId = s.sessionId ∧ l.state = .active := by
  decide +kernel

end LeafWeb.Executor
