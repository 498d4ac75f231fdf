import LeafWeb.Executor.Accounting

namespace LeafWeb.Executor

open Lib Transition Table List Option

variable {b : Books} {r : Record}

section

variable {a : AccountingRow} {o : Outcome} {s e now : ℤ}

structure Balanced (b : Books) : Prop where
  closed : ∀ {id a}, b.accounting.find id = some a →
    ∃ row s e, b.invocations.find id = some row ∧ row.phase = .closed a.outcome s e
  accounted : ∀ {id row o s e}, b.invocations.find id = some row → row.phase = .closed o s e →
    (b.accounting.find id).isSome
  announced : ∀ id, b.events.count id = if (b.accounting.find id).isSome then 1 else 0

lemma balanced_empty : Balanced .empty where
  closed h := by cases h
  accounted h := by cases h
  announced _ := rfl

lemma find_settle_accounting (hn : b.accounting.find a.invocationId = none) (phase : Phase) (now : ℤ)
    (id : ℕ) : (settle b a phase now).accounting.find id =
      if id = a.invocationId then some a else b.accounting.find id := by
  refine (find_insertMissing a id).trans ?_
  split_ifs with hid
  · rw [hid, hn, getD_none]
  · rfl

lemma find_settle_invocations (b : Books) (a : AccountingRow) (phase : Phase) (now : ℤ) (id : ℕ) :
    (settle b a phase now).invocations.find id =
      if id = a.invocationId then (b.invocations.find id).map (.advance phase now)
      else b.invocations.find id :=
  find_modify _ _ _ (InvocationRow.advance_id phase now) id

section

variable (h : Balanced b)
include h

lemma Balanced.settle (hr : (b.invocations.find a.invocationId).isSome)
    (hn : b.accounting.find a.invocationId = none) : Balanced (settle b a (.closed a.outcome s e) now) where
  closed {id a'} hf := by
    rw [find_settle_accounting hn] at hf
    rw [find_settle_invocations]
    split_ifs at hf ⊢ with hid
    · cases hf
      obtain ⟨row, hr⟩ := isSome_iff_exists.mp hr
      rw [hid, hr]
      exact ⟨_, s, e, rfl, rfl⟩
    · exact h.closed hf
  accounted {id row o s e} hf hp := by
    rw [find_settle_accounting hn]
    rw [find_settle_invocations] at hf
    split_ifs at hf ⊢ with hid
    · rfl
    · exact h.accounted hf hp
  announced id := by
    rw [find_settle_accounting hn]
    have hc : (Executor.settle b a (.closed a.outcome s e) now).events.count id =
        b.events.count id + if id = a.invocationId then 1 else 0 := by
      simp only [Executor.settle, count_append, count_singleton, beq_iff_eq]
      simp [eq_comm]
    rw [hc, h.announced id]
    split_ifs with hs hid
    all_goals simp_all

lemma Balanced.reopen {invocations : Table InvocationRow.invocationId}
    (hk : ∀ {id row o s e}, b.invocations.find id = some row → row.phase = .closed o s e →
      invocations.find id = some row)
    (hn : ∀ {id row o s e}, invocations.find id = some row → row.phase = .closed o s e →
      b.invocations.find id = some row) : Balanced { b with invocations } where
  closed hf := by
    obtain ⟨row, s, e, hr, hp⟩ := h.closed hf
    exact ⟨row, s, e, hk hr hp, hp⟩
  accounted hr hp := h.accounted (hn hr hp) hp
  announced := h.announced

lemma Balanced.opened (r : Record) (now : ℤ) : Balanced (opened b r now) := by
  have hf : ∀ id, (b.invocations.insertMissing (r.opening now)).find id =
      if id = r.identity.invocationId then some ((b.invocations.find id).getD (r.opening now))
      else b.invocations.find id :=
    fun id => find_insertMissing (r.opening now) id
  apply h.reopen
  · intro id row o s e hr hp
    rw [hf]
    split_ifs
    · rw [hr, getD_some]
    · exact hr
  · intro id row o s e hr hp
    rw [hf] at hr
    split_ifs at hr
    · cases hold : b.invocations.find id with
      | some old =>
        rw [hold, getD_some] at hr
        exact hr
      | none =>
        rw [hold, getD_none] at hr
        cases hr
        cases hp
    · exact hr

lemma Balanced.started {row : InvocationRow} (hf : b.invocations.find r.identity.invocationId = some row)
    (hp : row.phase = .accepted) : Balanced (started b r now) := by
  apply h.reopen
  · intro k old o s e hold hc
    rw [find_modify]
    split_ifs with hk
    · rw [hk, hf] at hold
      cases hold
      cases hp.symm.trans hc
    · exact hold
  · intro k old o s e hold hc
    rw [find_modify] at hold
    split_ifs at hold with hk
    · rw [hk, hf] at hold
      cases hold
      cases hc
    · exact hold

end

end

variable {b' b'' : Books} {dbNow : ℤ} {state : InvocationState} {charged : Bool} {outcome : Outcome}
  {usage : Usage} {row : InvocationRow}

lemma recordTerminal_eq_ok (h : recordTerminal b r row outcome usage dbNow = .ok ((state, charged), b')) :
    row.phase ≠ .accepted ∧
      ((charged = true ∧ b.accounting.find r.identity.invocationId = none ∧
          ∃ s, b' = settle b (r.accounting outcome usage) (.closed outcome s r.occurredAt) dbNow) ∨
        (charged = false ∧ b' = b ∧ ∃ a, b.accounting.find r.identity.invocationId = some a ∧
          (a.recovered ∨ a = r.accounting outcome usage))) := by
  rw [recordTerminal, bind_refuse] at h
  obtain ⟨hs, h⟩ := h
  refine ⟨hs, ?_⟩
  split at h
  next existing hf =>
    split_ifs at h with hr
    · cases h
      exact .inr ⟨rfl, rfl, existing, hf, .inl hr⟩
    · obtain ⟨he, h⟩ := bind_refuse.mp h
      cases h
      exact .inr ⟨rfl, rfl, existing, hf, .inr (not_not.mp he)⟩
  next hf =>
    obtain ⟨phase, hc, h⟩ := bind_demand.mp h
    cases h
    cases hp : row.phase with
    | accepted => exact absurd hp hs
    | started s | closed _ s _ =>
      rw [hp] at hc
      cases hc
      exact .inl ⟨rfl, hf, s, rfl⟩

lemma opened_of_find (h : b.invocations.find r.identity.invocationId = some row) : opened b r dbNow = b := by
  unfold opened
  have hk : b.invocations.insertMissing (r.opening dbNow) = b.invocations := insertMissing_of_find h
  rw [hk]

lemma find_of_opened (h : (opened b r dbNow).invocations.find r.identity.invocationId = some row)
    (hp : row.phase ≠ .accepted) : b.invocations.find r.identity.invocationId = some row := by
  have hf : (opened b r dbNow).invocations.find r.identity.invocationId =
      some ((b.invocations.find r.identity.invocationId).getD (r.opening dbNow)) :=
    (find_insertMissing (r.opening dbNow) _).trans (if_pos rfl)
  rw [hf] at h
  cases hold : b.invocations.find r.identity.invocationId with
  | some old => simpa [hold] using h
  | none =>
    rw [hold, getD_none] at h
    cases h
    exact absurd rfl hp

inductive Admitted (b : Books) (r : Record) (dbNow : ℤ) : Bool → Books → Prop
  | opened {row : InvocationRow} (hreport : ∀ outcome usage, r.report ≠ .terminal outcome usage)
      (hfind : (opened b r dbNow).invocations.find r.identity.invocationId = some row)
      (hphase : r.report = .started → row.phase ≠ .accepted) :
      Admitted b r dbNow false (opened b r dbNow)
  | started {row : InvocationRow} (hreport : r.report = .started)
      (hfind : (Executor.opened b r dbNow).invocations.find r.identity.invocationId = some row)
      (hphase : row.phase = .accepted) :
      Admitted b r dbNow false (started (Executor.opened b r dbNow) r dbNow)
  | settled {row : InvocationRow} {outcome : Outcome} {usage : Usage} {s : ℤ}
      (hreport : r.report = .terminal outcome usage)
      (hfind : b.invocations.find r.identity.invocationId = some row)
      (hnone : b.accounting.find r.identity.invocationId = none) :
      Admitted b r dbNow true (settle b (r.accounting outcome usage) (.closed outcome s r.occurredAt) dbNow)
  | again {outcome : Outcome} {usage : Usage} {a : AccountingRow}
      (hreport : r.report = .terminal outcome usage)
      (hfind : b.accounting.find r.identity.invocationId = some a)
      (hsame : a.recovered ∨ a = r.accounting outcome usage) : Admitted b r dbNow false b

section

variable (h : recordInvocation b r dbNow = .ok ((state, charged), b'))
include h

lemma identified_of_ok :
    backed b r.identity r.occurredAt ∧ ∃ row,
      (opened b r dbNow).invocations.find r.identity.invocationId = some row ∧ row.identity = r.identity := by
  rw [recordInvocation, bind_refuse, not_not] at h
  simp only [bind_demand, filter_eq_some_iff, decide_eq_true_eq] at h
  obtain ⟨hb, row, hr, -⟩ := h
  exact ⟨hb, row, hr⟩

lemma admitted_of_ok : Admitted b r dbNow charged b' := by
  rw [recordInvocation, bind_refuse] at h
  simp only [bind_demand, filter_eq_some_iff] at h
  obtain ⟨-, row, ⟨hf, -⟩, h⟩ := h
  cases hr : r.report with
  | accepted =>
    simp only [hr] at h
    obtain ⟨⟨-, rfl⟩, rfl⟩ := h
    exact .opened (by simp [hr]) hf (by simp [hr])
  | started =>
    simp only [hr] at h
    split_ifs at h with hp
    · obtain ⟨⟨-, rfl⟩, rfl⟩ := h
      exact .started hr hf hp
    · obtain ⟨⟨-, rfl⟩, rfl⟩ := h
      exact .opened (by simp [hr]) hf fun _ => hp
  | terminal outcome usage =>
    simp only [hr] at h
    obtain ⟨hp, h⟩ := recordTerminal_eq_ok h
    have hrow := find_of_opened hf hp
    rw [opened_of_find hrow] at h
    rcases h with ⟨rfl, hn, s, rfl⟩ | ⟨rfl, rfl, a, ha, hs⟩
    · exact .settled hr hrow hn
    · exact .again hr ha hs

end

lemma Balanced.admitted (hb : Balanced b) (h : Admitted b r dbNow charged b') : Balanced b' := by
  cases h with
  | opened => exact hb.opened r dbNow
  | started _ hf hp => exact (hb.opened r dbNow).started hf hp
  | settled _ hf hn => exact hb.settle (isSome_of_eq_some hf) hn
  | again => exact hb

variable {ids ids' : List ℕ} {stale limit : ℤ} {locked : ℕ → Bool} {rows : List InvocationRow}
  {a : Books × List ℕ}

structure Recovers (b b' : Books) (ids : List ℕ) : Prop where
  listed : ∀ id ∈ ids, b.accounting.find id = none ∧ ∃ a, b'.accounting.find id = some a ∧ a.recovered
  other : ∀ id, id ∉ ids → b'.accounting.find id = b.accounting.find id

lemma Recovers.append (h : Recovers b b' ids) (h' : Recovers b' b'' ids') : Recovers b b'' (ids ++ ids') where
  listed id hid := by
    by_cases hf : id ∈ ids
    · obtain ⟨hn, a, ha, hr⟩ := h.listed id hf
      have hk : id ∉ ids' := by
        intro hm
        cases ((h'.listed id hm).1).symm.trans ha
      exact ⟨hn, a, (h'.other id hk).trans ha, hr⟩
    · obtain ⟨hn, ha⟩ := h'.listed id ((mem_append.mp hid).resolve_left hf)
      exact ⟨(h.other id hf).symm.trans hn, ha⟩
  other id hid := by
    rw [mem_append, not_or] at hid
    exact (h'.other id hid.2).trans (h.other id hid.1)

lemma recovers_row (hb : Balanced a.1) (hr : (a.1.invocations.find row.invocationId).isSome) :
    ∃ ids, (recoverRow dbNow a row).2 = a.2 ++ ids ∧ Balanced (recoverRow dbNow a row).1 ∧
      Recovers a.1 (recoverRow dbNow a row).1 ids ∧
      ∀ id, (a.1.invocations.find id).isSome → ((recoverRow dbNow a row).1.invocations.find id).isSome := by
  unfold recoverRow
  split_ifs with hs
  · exact ⟨[], by simp, hb, ⟨by simp, fun _ _ => rfl⟩, fun _ => id⟩
  have hn : a.1.accounting.find (row.lost dbNow).invocationId = none := not_isSome_iff_eq_none.mp hs
  obtain ⟨s, e, hc⟩ : ∃ s e, row.phase.abandon row.acceptedAt dbNow = .closed (row.lost dbNow).outcome s e := by
    cases row.phase <;> exact ⟨_, _, rfl⟩
  rw [hc]
  have hf := find_settle_accounting hn (.closed (row.lost dbNow).outcome s e) dbNow
  refine ⟨[row.invocationId], rfl, hb.settle hr hn, ⟨?_, ?_⟩, ?_⟩
  · intro id hid
    rw [mem_singleton.mp hid]
    exact ⟨hn, row.lost dbNow, (hf _).trans (if_pos rfl), rfl⟩
  · intro id hid
    exact (hf id).trans (if_neg fun h => hid (mem_singleton.mpr h))
  · intro id hid
    rw [find_settle_invocations]
    split_ifs
    · rw [isSome_map]
      exact hid
    · exact hid

lemma recovers_rows (hb : Balanced a.1) (hrw : ∀ row ∈ rows, (a.1.invocations.find row.invocationId).isSome) :
    ∃ ids, (rows.foldl (recoverRow dbNow) a).2 = a.2 ++ ids ∧
      Balanced (rows.foldl (recoverRow dbNow) a).1 ∧
      Recovers a.1 (rows.foldl (recoverRow dbNow) a).1 ids := by
  induction rows generalizing a with
  | nil => exact ⟨[], by simp, hb, ⟨by simp, fun _ _ => rfl⟩⟩
  | cons row rows ih =>
    obtain ⟨ids, hi, hbl, hr, hk⟩ := @recovers_row dbNow row a hb (hrw row mem_cons_self)
    obtain ⟨ids', hi', hbl', hr'⟩ := ih hbl fun x hx => hk _ (hrw x (mem_cons_of_mem row hx))
    refine ⟨ids ++ ids', ?_, hbl', hr.append hr'⟩
    rw [foldl_cons, hi', hi, append_assoc]

lemma recoverStaleInvocations_eq_ok {found : List ℕ × Books}
    (h : recoverStaleInvocations b stale limit locked dbNow = .ok found) :
    found.1 = ((staleRows b stale limit.toNat locked).foldl (recoverRow dbNow) (b, [])).2 ∧
      found.2 = ((staleRows b stale limit.toNat locked).foldl (recoverRow dbNow) (b, [])).1 := by
  simp only [recoverStaleInvocations, bind_refuse, pure_eq_ok] at h
  obtain ⟨-, rfl⟩ := h
  exact ⟨rfl, rfl⟩

lemma recovers_of_ok (hb : Balanced b) (h : recoverStaleInvocations b stale limit locked dbNow = .ok (ids, b')) :
    Balanced b' ∧ Recovers b b' ids := by
  obtain ⟨rfl, rfl⟩ := recoverStaleInvocations_eq_ok h
  have hp : ∀ row ∈ staleRows b stale limit.toNat locked, (b.invocations.find row.invocationId).isSome := by
    intro row hrow
    have hm : row ∈ b.invocations.rows := (mem_filter.mp (mem_sortOn.mp (mem_of_mem_take hrow))).1
    rw [find_some.mpr ⟨hm, rfl⟩]
    rfl
  obtain ⟨ids, hi, hbl, hr⟩ := @recovers_rows dbNow (staleRows b stale limit.toNat locked) (b, []) hb hp
  exact ⟨hbl, hi ▸ hr⟩

variable {timeout : ℤ} {x : Delivery × Reply} {h : List (Delivery × Reply)}

def charges (id : ℕ) : Delivery × Reply → Bool
  | (.record r _, .recorded _ true) => r.identity.invocationId = id
  | _ => false

def Reply.recovers (id : ℕ) : Reply → Bool
  | .recovered ids => ids.contains id
  | _ => false

def settles (a : AccountingRow) : Delivery × Reply → Prop
  | (.record r _, .recorded _ _) => ∃ outcome usage, r.report = .terminal outcome usage ∧
      a = r.accounting outcome usage
  | _ => False

structure Reported (h : List (Delivery × Reply)) (b : Books) : Prop where
  balanced : Balanced b
  charged : ∀ id, h.countP (charges id) = if (b.accounting.find id).any (!·.recovered) then 1 else 0
  recovered : ∀ id, ∀ x ∈ h, x.2.recovers id → ∃ a, b.accounting.find id = some a ∧ a.recovered
  lost : ∀ id a, b.accounting.find id = some a → a.recovered → ∃ x ∈ h, x.2.recovers id
  settled : ∀ a, ∀ x ∈ h, settles a x → ∃ a', b.accounting.find a.invocationId = some a' ∧ (a'.recovered ∨ a' = a)

structure Logged (b : Books) (x : Delivery × Reply) (b' : Books) : Prop where
  balanced : Balanced b → Balanced b'
  kept : ∀ id a, b.accounting.find id = some a → b'.accounting.find id = some a
  charged : ∀ id, charges id x → b.accounting.find id = none ∧ ∃ a, b'.accounting.find id = some a ∧ ¬a.recovered
  uncharged : ∀ id, ¬charges id x → ∀ a, b'.accounting.find id = some a → ¬a.recovered →
    b.accounting.find id = some a
  recovered : ∀ id, x.2.recovers id → ∃ a, b'.accounting.find id = some a ∧ a.recovered
  lost : ∀ id a, b'.accounting.find id = some a → a.recovered → b.accounting.find id = some a ∨ x.2.recovers id
  settled : ∀ a, settles a x → ∃ a', b'.accounting.find a.invocationId = some a' ∧ (a'.recovered ∨ a' = a)

lemma Logged.of_accounting_eq (hb : Balanced b → Balanced b')
    (hac : b'.accounting = b.accounting) (hc : ∀ id, ¬charges id x) (hr : ∀ id, ¬x.2.recovers id)
    (hs : ∀ a, settles a x → ∃ a', b.accounting.find a.invocationId = some a' ∧
      (a'.recovered ∨ a' = a)) : Logged b x b' where
  balanced := hb
  kept _ _ ha := hac ▸ ha
  charged id h := absurd h (hc id)
  uncharged _ _ _ ha _ := hac ▸ ha
  recovered id h := absurd h (hr id)
  lost _ _ ha _ := .inl (hac ▸ ha)
  settled a h := hac ▸ hs a h

lemma Reported.step (hr : Reported h b) (hx : Logged b x b') : Reported (h ++ [x]) b' where
  balanced := hx.balanced hr.balanced
  charged id := by
    rw [countP_append, hr.charged id, countP_singleton]
    by_cases hc : charges id x
    · obtain ⟨hn, a, ha, hp⟩ := hx.charged id hc
      simp [hn, ha, hp, hc]
    · have hsm : (b'.accounting.find id).any (!·.recovered) = (b.accounting.find id).any (!·.recovered) := by
        rw [Bool.eq_iff_iff]
        simp only [Option.any_eq_true, Bool.not_eq_true']
        constructor
        · rintro ⟨a, ha, hp⟩
          exact ⟨a, hx.uncharged id hc a ha (by simp [hp]), hp⟩
        · rintro ⟨a, ha, hp⟩
          exact ⟨a, hx.kept id a ha, hp⟩
      rw [hsm, if_neg hc, add_zero]
  recovered id y hy hrc := by
    rcases mem_append.mp hy with hy | hy
    · obtain ⟨a, ha, hrv⟩ := hr.recovered id y hy hrc
      exact ⟨a, hx.kept id a ha, hrv⟩
    · rw [mem_singleton.mp hy] at hrc
      exact hx.recovered id hrc
  lost id a ha hrv := by
    rcases hx.lost id a ha hrv with hold | hrc
    · obtain ⟨y, hy, hrc⟩ := hr.lost id a hold hrv
      exact ⟨y, mem_append_left [x] hy, hrc⟩
    · exact ⟨x, mem_append_right h (mem_singleton_self x), hrc⟩
  settled a y hy hs := by
    rcases mem_append.mp hy with hy | hy
    · obtain ⟨a', ha', hsm⟩ := hr.settled a y hy hs
      exact ⟨a', hx.kept _ a' ha', hsm⟩
    · rw [mem_singleton.mp hy] at hs
      exact hx.settled a hs

lemma Admitted.logged
    (h : Admitted b r dbNow charged b') : Logged b (.record r dbNow, .recorded state charged) b' := by
  have hbl : Balanced b → Balanced b' := fun hb => hb.admitted h
  have hq : ∀ id, ¬charges id (.record r dbNow, .recorded state false) := fun _ => Bool.false_ne_true
  cases h with
  | opened hr | started hr =>
    refine .of_accounting_eq hbl rfl hq (fun _ => Bool.false_ne_true) ?_
    rintro a ⟨outcome, usage, ht, -⟩
    simp_all
  | again hr hf hs =>
    refine .of_accounting_eq hbl rfl hq (fun _ => Bool.false_ne_true) ?_
    rintro a ⟨outcome, usage, ht, rfl⟩
    cases hr.symm.trans ht
    exact ⟨_, hf, hs⟩
  | @settled row outcome usage s hr _ hn =>
    have hf := @find_settle_accounting b (r.accounting outcome usage) hn (.closed outcome s r.occurredAt) dbNow
    have hnew := (hf r.identity.invocationId).trans (if_pos rfl)
    refine ⟨hbl, ?_, ?_, ?_, fun _ h => absurd h Bool.false_ne_true, ?_, ?_⟩
    · intro id a ha
      have hne : id ≠ r.identity.invocationId := by
        rintro rfl
        cases hn.symm.trans ha
      rw [hf id]
      exact (if_neg hne).trans ha
    · intro id hc
      rw [← of_decide_eq_true hc]
      exact ⟨hn, _, hnew, Bool.false_ne_true⟩
    · intro id hc a ha _
      rw [hf id] at ha
      rwa [if_neg fun hid => hc (decide_eq_true hid.symm)] at ha
    · intro id a ha hrc
      rw [hf id] at ha
      split_ifs at ha
      · cases ha
        cases hrc
      · exact .inl ha
    · rintro a ⟨outcome', usage', ht, rfl⟩
      cases hr.symm.trans ht
      exact ⟨_, hnew, .inr rfl⟩

lemma Recovers.logged (h : Recovers b b' ids)
    (hb : Balanced b → Balanced b') (stale limit : ℤ) (locked : ℕ → Bool) (dbNow : ℤ) :
    Logged b (.recover stale limit locked dbNow, .recovered ids) b' where
  balanced := hb
  kept id a ha := by
    have hold : id ∉ ids := by
      intro hid
      cases ((h.listed id hid).1).symm.trans ha
    exact (h.other id hold).trans ha
  charged id hc := by cases hc
  uncharged id _ a ha hp := by
    have hold : id ∉ ids := by
      intro hid
      obtain ⟨-, a', ha', hr⟩ := h.listed id hid
      cases ha'.symm.trans ha
      exact hp hr
    exact (h.other id hold).symm.trans ha
  recovered id hrc := (h.listed id (contains_iff_mem.mp hrc)).2
  lost id a ha _ := by
    by_cases hid : id ∈ ids
    · exact .inr (contains_iff_mem.mpr hid)
    · exact .inl ((h.other id hid).symm.trans ha)
  settled a hs := by cases hs

lemma deliver_logged (hb : Balanced b) (d : Delivery) :
    Logged b (d, (deliver b timeout d).1) (deliver b timeout d).2 := by
  cases d with
  | store op dbNow =>
    refine .of_accounting_eq (fun hb => ⟨hb.closed, hb.accounted, hb.announced⟩) rfl
      (fun _ => Bool.false_ne_true) (fun _ => Bool.false_ne_true) ?_
    intro a hs
    cases hs
  | record r dbNow =>
    simp only [deliver]
    cases h : recordInvocation b r dbNow with
    | error e =>
      exact .of_accounting_eq id rfl (fun _ => Bool.false_ne_true) (fun _ => Bool.false_ne_true)
        fun a hs => by cases hs
    | ok found => exact (admitted_of_ok h).logged
  | recover stale limit locked dbNow =>
    simp only [deliver]
    cases h : recoverStaleInvocations b stale limit locked dbNow with
    | error e =>
      exact .of_accounting_eq id rfl (fun _ => Bool.false_ne_true) (fun _ => Bool.false_ne_true)
        fun a hs => by cases hs
    | ok found =>
      obtain ⟨hbl, hr⟩ := recovers_of_ok hb h
      exact hr.logged (fun _ => hbl) stale limit locked dbNow

lemma reported_run (timeout : ℤ) (ds : List Delivery) :
    Reported (trace (fun b => deliver b timeout) .empty ds) (after (fun b => deliver b timeout) .empty ds) := by
  have h0 : Reported [] .empty :=
    ⟨balanced_empty, fun _ => rfl, fun _ _ hx => absurd hx not_mem_nil,
      fun _ _ ha => (by cases ha), fun _ _ hx => absurd hx not_mem_nil⟩
  refine history h0 ?_ ds
  intro h b d hr
  exact hr.step (deliver_logged hr.balanced d)

variable {e : StoreError} {t : Authority}

lemma commit_failed {α : Type} {answer : α → Answer}
    (ha : ∀ a e, answer a ≠ .failed e) {x : Except StoreError (α × Authority)}
    (h : (commit t answer x).1 = .failed e) : (commit t answer x).2 = t := by
  cases x with
  | error => rfl
  | ok found => exact absurd h (ha found.1 e)

lemma apply_failed {op : Op} (h : (apply t timeout op).1 = .failed e) : (apply t timeout op).2 = t := by
  cases op with
  | registerHost | abortClaim | completeReclaim | getSession | getSlot | getClaim => cases h
  | _ => exact commit_failed (by simp) h

lemma deliver_raised (timeout : ℤ) (b : Books) (d : Delivery) (h : (deliver b timeout d).1.raised) :
    (deliver b timeout d).2 = b := by
  cases d with
  | store op dbNow =>
    cases ha : (apply b.db timeout op).1 with
    | failed e =>
      have hdb := apply_failed ha
      simp [deliver, storeStep, hdb]
    | _ => simp [deliver, storeStep, ha, Reply.raised] at h
  | record | recover =>
    simp only [deliver] at h ⊢
    split at h
    · rfl
    · cases h

lemma deliver_again {a : AccountingRow} (hr : r.report = .terminal outcome usage)
    (hf : b.accounting.find r.identity.invocationId = some a) (dbNow : ℤ) :
    (deliver b timeout (.record r dbNow)).2 = b := by
  simp only [deliver]
  cases h : recordInvocation b r dbNow with
  | error e => rfl
  | ok found =>
    obtain ⟨⟨state, charged⟩, b'⟩ := found
    cases admitted_of_ok h with
    | opened ho => exact absurd hr (ho outcome usage)
    | started hs =>
      cases hr.symm.trans hs
    | settled _ _ hn =>
      cases hf.symm.trans hn
    | again => rfl

lemma length_filter_invocation (t : Table AccountingRow.invocationId) (id : ℕ) :
    (t.rows.filter fun a => a.invocationId = id).length = if (t.find id).isSome then 1 else 0 := by
  split_ifs with hs
  · obtain ⟨a, ha⟩ := isSome_iff_exists.mp hs
    have hp : 0 < (t.rows.filter fun a => a.invocationId = id).length :=
      length_pos_of_mem (mem_filter.mpr ⟨mem_of_find ha, by simp [find_key ha]⟩)
    have hle := t.length_filter_key id
    omega
  · rw [not_isSome_iff_eq_none, find_none] at hs
    rw [length_eq_zero_iff, filter_eq_nil_iff]
    intro a ha hid
    exact hs (mem_map.mpr ⟨a, ha, of_decide_eq_true hid⟩)

def InvocationState.terminal : InvocationState → Bool
  | .succeeded | .failed => true
  | .accepted | .started => false

lemma Phase.terminal_iff {p : Phase} : p.state.terminal ↔ ∃ o s e, p = .closed o s e := by
  cases p with
  | accepted | started => simp [Phase.state, InvocationState.terminal]
  | closed o s e => cases o <;> simp [Phase.state, Outcome.state, InvocationState.terminal]

lemma Balanced.terminal_iff (hb : Balanced b) (id : ℕ) :
    (∃ row ∈ b.invocations.rows, row.invocationId = id ∧ row.phase.state.terminal) ↔
      ∃ a ∈ b.accounting.rows, a.invocationId = id := by
  constructor
  · rintro ⟨row, hr, hid, ht⟩
    obtain ⟨o, s, e, hc⟩ := Phase.terminal_iff.mp ht
    obtain ⟨a, ha⟩ := isSome_iff_exists.mp (hb.accounted (find_some.mpr ⟨hr, hid⟩) hc)
    exact ⟨a, find_some.mp ha⟩
  · rintro ⟨a, ha, hid⟩
    obtain ⟨row, s, e, hr, hc⟩ := hb.closed (find_some.mpr ⟨ha, hid⟩)
    obtain ⟨hm, hk⟩ := find_some.mp hr
    exact ⟨row, hm, hk, Phase.terminal_iff.mpr ⟨_, s, e, hc⟩⟩

theorem accounted_exactly_once (timeout : ℤ) (ds : List Delivery) (id : ℕ) :
    let h := trace (fun b => deliver b timeout) .empty ds
    let b := after (fun b => deliver b timeout) .empty ds
    let rows := b.accounting.rows.filter fun a => a.invocationId = id
    rows.length ≤ 1 ∧
    h.countP (charges id) ≤ 1 ∧
    b.events.count id = rows.length ∧
    ((∃ row ∈ b.invocations.rows, row.invocationId = id ∧ row.phase.state.terminal) ↔
      ∃ a ∈ b.accounting.rows, a.invocationId = id) ∧
    ((∃ x ∈ h, x.2.recovers id) → h.countP (charges id) = 0) ∧
    (∀ r now now' state charged outcome usage, r.report = .terminal outcome usage →
      (.record r now, .recorded state charged) ∈ h → (deliver b timeout (.record r now')).2 = b) ∧
    (∀ d, (deliver b timeout d).1.raised → (deliver b timeout d).2 = b) := by
  intro h b rows
  have hr : Reported h b := reported_run timeout ds
  refine ⟨b.accounting.length_filter_key id, ?_, ?_, hr.balanced.terminal_iff id, ?_, ?_, ?_⟩
  · rw [hr.charged id]
    split_ifs <;> simp
  · exact (hr.balanced.announced id).trans (length_filter_invocation b.accounting id).symm
  · rintro ⟨x, hx, hrv⟩
    obtain ⟨a, ha, hrc⟩ := hr.recovered id x hx hrv
    rw [hr.charged id, ha, any_some, hrc]
    rfl
  · intro r now now' state charged outcome usage hrp hx
    obtain ⟨a, ha, -⟩ := hr.settled (r.accounting outcome usage) _ hx ⟨outcome, usage, hrp, rfl⟩
    exact deliver_again hrp ha now'
  · exact deliver_raised timeout b

end LeafWeb.Executor
