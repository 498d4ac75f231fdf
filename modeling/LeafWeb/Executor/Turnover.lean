import LeafWeb.Executor.Exclusive
import LeafWeb.Executor.Settlement

namespace LeafWeb.Executor

open Lib Transition Table Option LeaseRow

variable {timeout : ℤ} {l : LeaseRow} {op : Op} {leases leases' leases'' : Table leaseId}
  {t t' : Authority}

def LeaseRow.Continues (l' l : LeaseRow) : Prop :=
  l'.sessionId = l.sessionId ∧ l'.notBefore = l.notBefore ∧ l'.expiresAt = l.expiresAt

def LeasesKept (leases leases' : Table leaseId) : Prop :=
  ∀ id l, leases.find id = some l → ∃ l', leases'.find id = some l' ∧ l'.Continues l

lemma LeasesKept.refl (leases : Table leaseId) : LeasesKept leases leases :=
  fun _ l h => ⟨l, h, rfl, rfl, rfl⟩

lemma LeasesKept.trans (h : LeasesKept leases leases')
    (h' : LeasesKept leases' leases'') : LeasesKept leases leases'' := by
  intro id l hl
  obtain ⟨l', hl', hs, hst, he⟩ := h id l hl
  obtain ⟨l'', hl'', hs', hst', he'⟩ := h' id l' hl'
  exact ⟨l'', hl'', hs'.trans hs, hst'.trans hst, he'.trans he⟩

lemma leasesKept_insert (h : leases.insert l = some leases') : LeasesKept leases leases' := by
  intro id l₀ hl₀
  exact ⟨l₀, find_insert_of_find h hl₀, rfl, rfl, rfl⟩

lemma leasesKept_endLeases (t : Authority) (sessionId : String) (state : LeaseState) :
    LeasesKept t.leases (endLeases t sessionId state) := by
  intro id l hl
  refine ⟨_, (find_updateWhere (close_id state) id).trans (congrArg _ hl), ?_⟩
  dsimp only
  split_ifs <;> exact ⟨rfl, rfl, rfl⟩

lemma leasesKept_move (h : Move op t t') : LeasesKept t.leases t'.leases := by
  cases h with
  | registerHost | setReadiness | heartbeat | claim | createSession => exact .refl _
  | abortClaim =>
    unfold abortClaim
    split <;> exact .refl _
  | activate _ _ hi => exact leasesKept_insert hi
  | renew _ _ hi => exact (leasesKept_endLeases t _ _).trans (leasesKept_insert hi)
  | finish | fence => exact leasesKept_endLeases t _ _
  | completeReclaim =>
    unfold completeReclaim
    split <;> exact .refl _
  | drain hd =>
    simp only [drain, bind_refuse] at hd
    obtain ⟨-, -, rfl⟩ := hd
    exact .refl _

lemma leasesKept_apply (t : Authority) (timeout : ℤ) (op : Op) :
    LeasesKept t.leases (apply t timeout op).2.leases := by
  refine apply_induction (I := fun u => LeasesKept t.leases u.leases) (.refl _) ?_
  intro u u' _ hu hm
  exact hu.trans (leasesKept_move hm)

variable {b b' b'' : Books} {now when : ℤ} {r : Record} {charged : Bool}

def InvocationRow.Continues (row' row : InvocationRow) : Prop :=
  row'.identity = row.identity ∧ (row.phase ≠ .accepted → row'.phase ≠ .accepted)

def InvocationsKept (b b' : Books) : Prop :=
  ∀ id row, b.invocations.find id = some row → ∃ row', b'.invocations.find id = some row' ∧ row'.Continues row

lemma InvocationsKept.refl (b : Books) : InvocationsKept b b := fun _ row h => ⟨row, h, rfl, id⟩

lemma InvocationsKept.trans (h : InvocationsKept b b') (h' : InvocationsKept b' b'') : InvocationsKept b b'' := by
  intro id row hr
  obtain ⟨row', hr', hs, hp⟩ := h id row hr
  obtain ⟨row'', hr'', hs', hp'⟩ := h' id row' hr'
  exact ⟨row'', hr'', hs'.trans hs, fun hne => hp' (hp hne)⟩

lemma invocationsKept_advance {phase : Phase} {id : ℕ} (hp : phase ≠ .accepted)
    (hb' : b'.invocations = b.invocations.modify id (.advance phase now)
      (InvocationRow.advance_id phase now)) : InvocationsKept b b' := by
  intro k row hr
  rw [hb', find_modify]
  split_ifs
  · exact ⟨row.advance phase now, by rw [hr]; rfl, rfl, fun _ => hp⟩
  · exact ⟨row, hr, rfl, fun hne => hne⟩

lemma invocationsKept_opened (b : Books) (r : Record) (now : ℤ) : InvocationsKept b (opened b r now) := by
  intro k row hr
  refine ⟨row, ?_, rfl, id⟩
  refine (find_insertMissing (r.opening now) k).trans ?_
  split_ifs
  · rw [hr, getD_some]
  · exact hr

lemma Admitted.invocationsKept (h : Admitted b r now charged b') : InvocationsKept b b' := by
  cases h with
  | opened => exact invocationsKept_opened b r now
  | started => exact (invocationsKept_opened b r now).trans (invocationsKept_advance (by simp) rfl)
  | settled => exact invocationsKept_advance (by simp) rfl
  | again => exact .refl b

lemma Phase.abandon_ne_accepted (p : Phase) (acceptedAt now : ℤ) : p.abandon acceptedAt now ≠ .accepted := by
  cases p <;> simp [abandon]

lemma invocationsKept_recover (now : ℤ) (rows : List InvocationRow) (a : Books × List ℕ) :
    InvocationsKept a.1 (rows.foldl (recoverRow now) a).1 := by
  induction rows generalizing a with
  | nil => exact .refl a.1
  | cons row rows ih =>
    refine InvocationsKept.trans ?_ (ih (recoverRow now a row))
    unfold recoverRow
    split_ifs
    · exact .refl a.1
    · exact invocationsKept_advance (Phase.abandon_ne_accepted _ _ _) rfl

lemma invocationsKept_deliver (b : Books) (timeout : ℤ) (d : Delivery) :
    InvocationsKept b (deliver b timeout d).2 := by
  cases d with
  | store op now => exact .refl b
  | record r now =>
    simp only [deliver]
    cases h : recordInvocation b r now with
    | error => exact .refl b
    | ok found => exact (admitted_of_ok h).invocationsKept
  | recover stale limit locked now =>
    simp only [deliver]
    cases h : recoverStaleInvocations b stale limit locked now with
    | error => exact .refl b
    | ok found =>
      rw [(recoverStaleInvocations_eq_ok h).2]
      exact invocationsKept_recover now _ (b, [])

lemma Admitted.db (h : Admitted b r now charged b') : b'.db = b.db := by
  cases h <;> rfl

lemma recover_db (now : ℤ) (rows : List InvocationRow) (a : Books × List ℕ) :
    (rows.foldl (recoverRow now) a).1.db = a.1.db := by
  induction rows generalizing a with
  | nil => rfl
  | cons row rows ih =>
    rw [List.foldl_cons, ih]
    unfold recoverRow
    split_ifs <;> rfl

lemma leasesKept_deliver (b : Books) (timeout : ℤ) (d : Delivery) :
    LeasesKept b.db.leases (deliver b timeout d).2.db.leases := by
  cases d with
  | store op now => exact leasesKept_apply b.db timeout op
  | record r now =>
    simp only [deliver]
    cases h : recordInvocation b r now with
    | error => exact .refl _
    | ok found =>
      rw [(admitted_of_ok h).db]
      exact .refl _
  | recover stale limit locked now =>
    simp only [deliver]
    cases h : recoverStaleInvocations b stale limit locked now with
    | error => exact .refl _
    | ok found =>
      rw [(recoverStaleInvocations_eq_ok h).2, recover_db]
      exact .refl _

variable {i : Identity}

def answers (i : Identity) (report : Report) : Delivery × Reply → Bool
  | (.record r _, .recorded _ _) => r.identity = i ∧ r.report = report
  | _ => false

def Underway (b : Books) (i : Identity) : Prop :=
  (∃ row, b.invocations.find i.invocationId = some row ∧ row.identity = i ∧ row.phase ≠ .accepted) ∧
    ∃ l, b.db.leases.find i.leaseId = some l ∧ l.sessionId = i.sessionId

lemma Underway.step (hu : Underway b i) (timeout : ℤ) (d : Delivery) : Underway (deliver b timeout d).2 i := by
  obtain ⟨⟨row, hr, hsm, hp⟩, l, hl, hs⟩ := hu
  obtain ⟨row', hr', hsm', hp'⟩ := invocationsKept_deliver b timeout d _ _ hr
  obtain ⟨l', hl', hs', -⟩ := leasesKept_deliver b timeout d _ _ hl
  exact ⟨⟨row', hr', hsm'.trans hsm, hp' hp⟩, l', hl', hs'.trans hs⟩

lemma lease_of_backed (hb : backed b i when) :
    ∃ l, b.db.leases.find i.leaseId = some l ∧ l.sessionId = i.sessionId := by
  obtain ⟨l, hl, hl'⟩ := (any_eq_true _ _).mp hb
  simp only [Bool.and_eq_true, decide_eq_true_eq] at hl'
  exact ⟨l, hl, hl'.1.1.1.1⟩

lemma underway_of_started {d : Delivery} (h : answers i .started (d, (deliver b timeout d).1)) :
    Underway (deliver b timeout d).2 i := by
  cases d with
  | store op now => cases h
  | recover stale limit locked now =>
    simp only [deliver] at h
    split at h <;> cases h
  | record r now =>
    simp only [deliver] at h ⊢
    cases hr : recordInvocation b r now with
    | error => simp [hr, answers] at h
    | ok found =>
      simp only [hr, answers, decide_eq_true_eq] at h ⊢
      obtain ⟨rfl, hrp⟩ := h
      obtain ⟨hb, row, hrow, hs⟩ := identified_of_ok hr
      have ha := admitted_of_ok hr
      refine ⟨?_, ha.db ▸ lease_of_backed hb⟩
      obtain ⟨⟨state, charged⟩, b'⟩ := found
      cases ha with
      | opened _ hf hp =>
        cases hrow.symm.trans hf
        exact ⟨row, hrow, hs, hp hrp⟩
      | started =>
        exact ⟨row.advance (.started r.occurredAt) now,
          find_modify_self (InvocationRow.advance_id _ now) hrow, hs,
          by simp [InvocationRow.advance]⟩
      | settled ht | again ht =>
        cases hrp.symm.trans ht

lemma underway_run (timeout : ℤ) (ds : List Delivery) (i : Identity)
    (h : ∃ x ∈ trace (fun b => deliver b timeout) .empty ds, answers i .started x) :
    Underway (after (fun b => deliver b timeout) .empty ds) i := by
  refine history (I := fun h b => (∃ x ∈ h, answers i .started x) → Underway b i) ?_ ?_ ds h
  · rintro ⟨x, hx, -⟩
    cases hx
  rintro h b d hi ⟨x, hx, ha⟩
  rcases List.mem_append.mp hx with hx | hx
  · exact (hi ⟨x, hx, ha⟩).step timeout d
  · rw [List.mem_singleton.mp hx] at ha
    exact underway_of_started ha

variable {row : InvocationRow} {outcome : Outcome} {usage : Usage}

def Reply.admitted : Reply → Bool
  | .recorded .. => true
  | .store _ | .recovered _ | .refused _ | .invalid _ => false

/-- The lease was not ended before the work was, and its session is still bound as it was then. -/
def Unturned (b : Books) (i : Identity) (l : LeaseRow) (occurredAt : ℤ) : Prop :=
  (∀ revoked, b.revokedAt l.leaseId = some revoked → occurredAt ≤ revoked) ∧
    ∃ s ∈ b.db.sessions.rows, s.sessionId = i.sessionId ∧ s.tenantId = i.tenantId ∧ s.codeDigest = i.codeDigest

lemma backed_iff (hl : b.db.leases.find i.leaseId = some l) (hs : l.sessionId = i.sessionId)
    (he : when ≤ l.expiresAt) : backed b i when ↔ l.notBefore ≤ when ∧ Unturned b i l when := by
  simp only [Unturned, backed, hl, any_some, hs, Bool.and_eq_true, any_eq_true, all_eq_true,
    decide_eq_true_eq, find_some]
  tauto

lemma recordTerminal_ok_iff (hp : row.phase ≠ .accepted)
    (hpd : ∀ a, b.accounting.find r.identity.invocationId = some a → ¬a.recovered) :
    (∃ found, recordTerminal b r row outcome usage now = .ok found) ↔
      ∀ a, b.accounting.find r.identity.invocationId = some a → a = r.accounting outcome usage := by
  simp only [recordTerminal, bind_refuse, hp, not_false_eq_true, true_and]
  cases hf : b.accounting.find r.identity.invocationId with
  | some a =>
    simp only [if_neg (hpd a hf), bind_refuse, not_not, pure_eq_ok, some.injEq, forall_eq',
      exists_and_left, exists_eq', and_true]
  | none =>
    cases hr : row.phase with
    | accepted => exact absurd hr hp
    | started | closed =>
      simp only [Phase.close, bind_demand, some.injEq, pure_eq_ok, exists_eq_left',
        exists_eq', reduceCtorEq, false_implies, implies_true]

lemma deliver_admitted :
    (deliver b timeout (.record r now)).1.admitted ↔ ∃ found, recordInvocation b r now = .ok found := by
  simp only [deliver]
  cases recordInvocation b r now <;> simp [Reply.admitted]

lemma admitted_iff (hr : b.invocations.find i.invocationId = some row)
    (hs : row.identity = i) (hp : row.phase ≠ .accepted)
    (hpd : ∀ a, b.accounting.find i.invocationId = some a → ¬a.recovered) :
    (deliver b timeout (.record ⟨i, when, .terminal outcome usage⟩ now)).1.admitted ↔
      backed b i when ∧ ∀ a, b.accounting.find i.invocationId = some a → a = ⟨i, outcome, when, usage, false⟩ := by
  have ho : opened b ⟨i, when, .terminal outcome usage⟩ now = b := opened_of_find hr
  rw [deliver_admitted]
  simp only [recordInvocation, bind_refuse, not_not, ho, hr, filter_some, hs,
    decide_true, if_true, bind_demand, some.injEq, exists_eq_left', exists_and_left]
  rw [recordTerminal_ok_iff hp hpd]
  rfl

theorem settlement_admitted_iff (timeout : ℤ) (ds : List Delivery) (i : Identity)
    (hbegun : ∀ report ∈ [Report.accepted, Report.started],
      ∃ x ∈ trace (fun b => deliver b timeout) .empty ds, answers i report x)
    (hlost : ∀ x ∈ trace (fun b => deliver b timeout) .empty ds, ¬x.2.recovers i.invocationId) :
    let b := after (fun b => deliver b timeout) .empty ds
    ∃ l, b.db.leases.find i.leaseId = some l ∧ ∀ outcome usage occurredAt now, occurredAt ≤ l.expiresAt →
      ((deliver b timeout (.record ⟨i, occurredAt, .terminal outcome usage⟩ now)).1.admitted ↔
        (l.notBefore ≤ occurredAt ∧ Unturned b i l occurredAt) ∧
          ∀ a ∈ b.accounting.rows, a.invocationId = i.invocationId →
            a = ⟨i, outcome, occurredAt, usage, false⟩) := by
  intro b
  obtain ⟨⟨row, hrow, hsm, hp⟩, l, hl, hs⟩ := underway_run timeout ds i (hbegun .started (by simp))
  refine ⟨l, hl, ?_⟩
  intro outcome usage occurredAt now he
  have hpd : ∀ a, b.accounting.find i.invocationId = some a → ¬a.recovered := by
    intro a ha hr
    obtain ⟨x, hx, hrc⟩ := (reported_run timeout ds).lost _ a ha hr
    exact hlost x hx hrc
  rw [admitted_iff hrow hsm hp hpd, backed_iff hl hs he]
  simp only [find_some, and_imp]
  rfl

def Identity.underLease : Identity := ⟨9, "tenant", "first", 2, "sha256:a"⟩

def startedWork : List Delivery :=
  oneSession.map (.store · 0) ++ [.record ⟨.underLease, 1, .accepted⟩ 1, .record ⟨.underLease, 2, .started⟩ 2]

theorem started_work_settles :
    let b := after (fun b => deliver b 30) .empty startedWork
    ∃ l, b.db.leases.find 2 = some l ∧ l.expiresAt = 60 ∧
      (deliver b 30 (.record ⟨.underLease, 20, .terminal .succeeded .zero⟩ 21)).1.admitted := by
  intro b
  have hls : b.db.leases.find 2 = some ((Lease.onSlot 2 1).row "first") := by decide +kernel
  have hk : Unturned b .underLease ((Lease.onSlot 2 1).row "first") 20 := by
    refine ⟨?_, (Session.onSlot "first" 1).activated (.onSlot 2 1), by decide +kernel, rfl, rfl, rfl⟩
    have ho : b.revokedAt 2 = none := by decide +kernel
    intro revoked hr
    cases ho.symm.trans hr
  obtain ⟨l, hl, hi⟩ := settlement_admitted_iff 30 startedWork .underLease (by decide +kernel) (by decide +kernel)
  cases hls.symm.trans hl
  refine ⟨_, hl, rfl, (hi .succeeded .zero 20 21 (by decide)).mpr ⟨⟨by decide, hk⟩, ?_⟩⟩
  intro a ha
  cases ha

def renewedMeanwhile : List Delivery :=
  startedWork ++ [.store (.renew "first" 1 ⟨3, "host", "slot-1", 1, 1, 1, 1, 2, 10, 60⟩) 10]

def reboundMeanwhile : List Delivery :=
  startedWork ++ [.store (.release "first") 30, .store (.completeReclaim "first" 30) 30,
    .store (.claimReadySlot 30 (some ("host", "slot-1")) 4 90) 30,
    .store (.createSession { Session.onSlot "first" 4 with bindingEpoch := 2, codeDigest := "sha256:b" } 30) 30]

def begun (ds : List Delivery) : Bool :=
  let h := trace (fun b => deliver b 30) .empty ds
  h.any (answers .underLease .accepted) && h.any (answers .underLease .started) &&
    h.all fun x => !x.2.recovers 9 && !x.2.raised

def settledLate (ds : List Delivery) : Reply :=
  (deliver (after (fun b => deliver b 30) .empty ds) 30
    (.record ⟨.underLease, 20, .terminal .succeeded .zero⟩ 31)).1

theorem turnover_refuses_settlement :
    (begun renewedMeanwhile ∧ begun reboundMeanwhile) ∧
      settledLate renewedMeanwhile =
        .refused (.stale "accounting identity is not backed by a valid durable lease") ∧
      settledLate reboundMeanwhile =
        .refused (.stale "accounting identity is not backed by a valid durable lease") := by
  decide +kernel

end LeafWeb.Executor
