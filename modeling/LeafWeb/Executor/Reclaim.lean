import LeafWeb.Executor.Moves

namespace LeafWeb.Executor

open Lib Table List SlotRow

def pending (t : Authority) (sessionId : String) : Prop :=
  ∃ o ∈ t.outbox.rows, o.entityId = sessionId ∧ o.publishedAt = none
  deriving Decidable

def HeldBy (ss : List Session) (r : SlotRow) : Prop :=
  ∃ s ∈ ss, s.place = r.place ∧ r.currentClaimId = some s.claimId
  deriving Decidable

variable {t t' : Authority} {dbNow now : ℤ} {s : Session} {id : String} {ids : List String} {o : OutboxRow}
  {n n' event : ℕ} {idle : Option ℤ} {locked : String → Bool}

def among (t : Authority) (ids : List String) : List Session := t.sessions.rows.filter fun s => s.sessionId ∈ ids

structure Reclaimed (t : Authority) (ids : List String) (t' : Authority) : Prop where
  hosts : t'.hosts = t.hosts
  sessions : ∀ k, t'.sessions.find k = (t.sessions.find k).map fun s =>
    if s.sessionId ∈ ids then s.invalidate else s
  slots : ∀ p, t'.slots.find p = (t.slots.find p).map fun r =>
    if r.state = .claimed ∧ HeldBy (among t ids) r then r.vacate else r
  kept : ∀ o ∈ t.outbox.rows, o ∈ t'.outbox.rows
  added : ∀ o ∈ t'.outbox.rows, o ∈ t.outbox.rows ∨ o.publishedAt = none ∧ o.entityId ∈ ids
  asked : ∀ id ∈ ids, (t.sessions.find id).isSome → pending t' id

lemma heldBy_among {r : SlotRow} : HeldBy (among t ids) r ↔ ∃ s, t.sessions.find s.sessionId = some s ∧
    s.sessionId ∈ ids ∧ s.place = r.place ∧ r.currentClaimId = some s.claimId := by
  constructor
  · rintro ⟨s, hs, hh⟩
    obtain ⟨hs, hid⟩ := mem_filter.mp hs
    exact ⟨s, find_some.mpr ⟨hs, rfl⟩, of_decide_eq_true hid, hh⟩
  · rintro ⟨s, hs, hid, hh⟩
    exact ⟨s, mem_filter.mpr ⟨mem_of_find hs, decide_eq_true hid⟩, hh⟩

lemma reclaimed_nil (t : Authority) : Reclaimed t [] t where
  hosts := rfl
  sessions k := by simp
  slots p := by simp [HeldBy, among]
  kept _ ho := ho
  added _ ho := .inl ho
  asked _ hid := by cases hid

lemma find_finish (k : String) :
    (finish t s).sessions.find k =
      (t.sessions.find k).map fun r => if r.sessionId = s.sessionId then r.invalidate else r := by
  refine (find_updateWhere Session.invalidate_id k).trans ?_
  simp [decide_eq_true_eq]

lemma Reclaimed.head {outbox : Table OutboxRow.eventId} (hf : t.sessions.find id = some s)
    (hid : s.sessionId = id) (ho : o.entityId = id)
    (hop : o.publishedAt = none) (hrw : outbox.rows = t.outbox.rows ++ [o])
    (h : Reclaimed { finish t s with outbox } ids t') : Reclaimed t (id :: ids) t' where
  hosts := h.hosts
  sessions k := by
    rw [h.sessions k]
    rw [find_finish, Option.map_map]
    congr 1
    funext r
    simp only [hid]
    by_cases hr : r.sessionId = id
    · simp [hr, Session.invalidate]
    · simp [hr]
  slots p := by
    rw [h.slots p]
    refine (congrArg (Option.map _) (find_updateWhere vacate_place p)).trans ?_
    rw [Option.map_map]
    congr 1
    funext r
    have hh : HeldBy (among t (id :: ids)) r ↔
        (s.place = r.place ∧ r.currentClaimId = some s.claimId) ∨
          HeldBy (among { finish t s with outbox } ids) r := by
      rw [heldBy_among, heldBy_among]
      constructor
      · rintro ⟨s', hs', hm, hp, hc⟩
        rcases mem_cons.mp hm with hs'id | hm
        · rw [hs'id, hf] at hs'
          cases hs'
          exact .inl ⟨hp, hc⟩
        refine .inr ⟨if s'.sessionId = s.sessionId then s'.invalidate else s', ?_, ?_, ?_, ?_⟩
        · have hk : (if s'.sessionId = s.sessionId then s'.invalidate else s').sessionId =
              s'.sessionId := by split_ifs <;> rfl
          rw [hk]
          exact (find_finish _).trans (by rw [hs']; rfl)
        · split_ifs <;> exact hm
        · split_ifs <;> exact hp
        · split_ifs <;> exact hc
      · rintro (⟨hp, hc⟩ | ⟨s', hs', hm, hp, hc⟩)
        · exact ⟨s, hid ▸ hf, by rw [hid]; exact mem_cons_self, hp, hc⟩
        · have hs'' : ((t.sessions.find s'.sessionId).map fun r =>
              if r.sessionId = s.sessionId then r.invalidate else r) = some s' :=
            (find_finish _).symm.trans hs'
          obtain ⟨r₀, hr₀, heq⟩ := Option.map_eq_some_iff.mp hs''
          have hk := find_key hr₀
          refine ⟨r₀, by rw [hk]; exact hr₀, by rw [hk]; exact mem_cons_of_mem _ hm, ?_, ?_⟩
          · rw [← hp, ← heq]
            split_ifs <;> rfl
          · rw [hc, ← heq]
            split_ifs <;> rfl
    simp only [hh]
    by_cases hr : (r.place = s.place ∧ r.currentClaimId = some s.claimId) ∧ r.state = .claimed
    · simp [hr, vacate]
    by_cases hcl : r.state = .claimed
    · have hot : ¬(s.place = r.place ∧ r.currentClaimId = some s.claimId) := fun hs => hr ⟨⟨hs.1.symm, hs.2⟩, hcl⟩
      simp [if_neg hr, hot]
    · simp [hcl]
  kept o' ho' := by
    apply h.kept
    rw [hrw]
    exact mem_append_left _ ho'
  added o' ho' := by
    rcases h.added o' ho' with hold | ⟨hop', hm⟩
    · rw [hrw, mem_append, mem_singleton] at hold
      rcases hold with hold | rfl
      · exact .inl hold
      · exact .inr ⟨hop, ho ▸ mem_cons_self⟩
    · exact .inr ⟨hop', mem_cons_of_mem _ hm⟩
  asked id' hid' hsm := by
    rcases mem_cons.mp hid' with rfl | hm
    · refine ⟨o, h.kept o ?_, ho, hop⟩
      rw [hrw]
      exact mem_append_right _ mem_cons_self
    apply h.asked id' hm
    rw [show (({ finish t s with outbox } : Authority).sessions.find id') = _ from find_finish id',
      Option.isSome_map]
    exact hsm

lemma reclaimed_of_fences (h : ids.foldlM (fence dbNow) (t, n) = .ok (t', n'))
    (hf : ∀ id ∈ ids, (t.sessions.find id).isSome) : Reclaimed t ids t' := by
  induction ids generalizing t n with
  | nil =>
    cases h
    exact reclaimed_nil _
  | cons id ids ih =>
    obtain ⟨⟨u, m⟩, hfn, hr⟩ := bind_eq_ok.mp h
    rcases fence_eq_ok hfn with ⟨hn, -, -⟩ | ⟨s, outbox, hfd, hid, hi, rfl, rfl⟩
    · have hs := hf id mem_cons_self
      rw [hn] at hs
      cases hs
    refine Reclaimed.head hfd hid rfl rfl (insert_rows hi).1 (ih hr ?_)
    intro id' hid'
    rw [show (({ finish t s with outbox } : Authority).sessions.find id') = _ from find_finish id',
      Option.isSome_map]
    exact hf id' (mem_cons_of_mem _ hid')

lemma fences_ok (dbNow : ℤ) (ids : List String) (hf : ∀ o ∈ t.outbox.rows, o.eventId < n) :
    ∃ a, ids.foldlM (fence dbNow) (t, n) = .ok a := by
  induction ids generalizing t n with
  | nil => exact ⟨_, rfl⟩
  | cons id ids ih =>
    rw [foldlM_cons]
    cases hfd : t.sessions.find id with
    | none =>
      have hfn : fence dbNow (t, n) id = .ok (t, n) := by
        simp [fence, finishSession, hfd]
      rw [hfn]
      exact ih hf
    | some s =>
      have hnew : n ∉ t.outbox.rows.map OutboxRow.eventId := by
        intro hm
        obtain ⟨o, ho, hn⟩ := mem_map.mp hm
        exact absurd (hf o ho) (by omega)
      obtain ⟨outbox, hi⟩ : ∃ outbox, t.outbox.insert ⟨n, id, dbNow, none⟩ = some outbox := by
        simp [Table.insert, hnew]
      have hfn : fence dbNow (t, n) id = .ok ({ finish t s with outbox }, n + 1) := by
        simp [fence, finishSession, hfd, finish, hi, demand]
      rw [hfn]
      apply ih
      intro o ho
      rw [mem_insert hi] at ho
      rcases ho with ho | rfl
      · exact Nat.lt_succ_of_lt (hf o ho)
      · exact Nat.lt_succ_self n

def eligible (t : Authority) (now : ℤ) (idleBefore : Option ℤ) (locked : String → Bool) : List String :=
  (t.sessions.rows.filter fun s => reclaimable now idleBefore s && !locked s.sessionId).map Session.sessionId

lemma eligible_found (h : id ∈ eligible t now idle locked) :
    ∃ s, t.sessions.find id = some s ∧ s.sessionId = id ∧ reclaimable now idle s := by
  obtain ⟨s, hs, rfl⟩ := mem_map.mp h
  obtain ⟨hs, hp⟩ := mem_filter.mp hs
  exact ⟨s, find_some.mpr ⟨hs, rfl⟩, rfl, (Bool.and_eq_true_iff.mp hp).1⟩

lemma mem_pendingReleases : o ∈ pendingReleases t ↔ o ∈ t.outbox.rows ∧ o.publishedAt = none := by
  simp [pendingReleases]

lemma reclaim_eq_ok {found : List Session}
    (h : reclaimInstantSessions t now idle locked dbNow event = .ok (found, t')) :
    Reclaimed t (eligible t now idle locked) t' ∧
      ∀ s, s ∈ found ↔ t'.sessions.find s.sessionId = some s ∧ pending t' s.sessionId := by
  obtain ⟨⟨u, n⟩, hfl, hr⟩ := bind_eq_ok.mp h
  cases hr
  refine ⟨reclaimed_of_fences hfl ?_, ?_⟩
  · intro id hid
    obtain ⟨s, hs, -⟩ := eligible_found hid
    rw [hs]
    rfl
  · intro s
    rw [mem_filterMap]
    constructor
    · rintro ⟨o, ho, hf⟩
      obtain ⟨ho, hop⟩ := mem_pendingReleases.mp ho
      have hk := find_key hf
      exact ⟨by rw [hk]; exact hf, o, ho, hk.symm, hop⟩
    · rintro ⟨hf, o, ho, hid, hop⟩
      exact ⟨o, mem_pendingReleases.mpr ⟨ho, hop⟩, by rw [hid]; exact hf⟩

def completeAll (t : Authority) (dbNow : ℤ) (found : List Session) : Authority :=
  found.foldl (fun u s => completeReclaim u s.sessionId dbNow) t

lemma completeReclaim_eq (dbNow : ℤ) (h : t.sessions.find s.sessionId = some s) :
    (completeReclaim t s.sessionId dbNow).hosts = t.hosts ∧
      (completeReclaim t s.sessionId dbNow).sessions = t.sessions ∧
        ∀ p, (completeReclaim t s.sessionId dbNow).slots.find p = (t.slots.find p).map fun r =>
          if r.state = .releasing ∧ HeldBy [s] r then r.free else r := by
  unfold completeReclaim
  rw [h]
  refine ⟨rfl, rfl, fun p => (find_updateWhere free_place p).trans ?_⟩
  congr 1
  funext r
  simp only [HeldBy, mem_singleton, exists_eq_left, Bool.and_eq_true, decide_eq_true_eq]
  congr 1
  rw [eq_iff_iff]
  constructor
  · rintro ⟨⟨hp, hc⟩, hs⟩
    exact ⟨hs, hp.symm, hc⟩
  · rintro ⟨hs, hp, hc⟩
    exact ⟨⟨hp.symm, hc⟩, hs⟩

lemma completeAll_eq (dbNow : ℤ) (found : List Session) (hf : ∀ s ∈ found, t.sessions.find s.sessionId = some s) :
    (completeAll t dbNow found).hosts = t.hosts ∧
      ∀ p, (completeAll t dbNow found).slots.find p = (t.slots.find p).map fun r =>
        if r.state = .releasing ∧ HeldBy found r then r.free else r := by
  induction found generalizing t with
  | nil => simp [completeAll, HeldBy]
  | cons s found ih =>
    obtain ⟨hh, hsn, hsl⟩ := completeReclaim_eq dbNow (hf s mem_cons_self)
    have hrs := ih (t := completeReclaim t s.sessionId dbNow) (by
      intro s' hs'
      rw [hsn]
      exact hf s' (mem_cons_of_mem _ hs'))
    refine ⟨hrs.1.trans hh, fun p => (hrs.2 p).trans ?_⟩
    rw [hsl, Option.map_map]
    congr 1
    funext r
    have hc : HeldBy (s :: found) r ↔ HeldBy [s] r ∨ HeldBy found r := by
      simp [HeldBy]
    simp only [hc]
    by_cases hr : r.state = .releasing ∧ HeldBy [s] r
    · simp [hr, free]
    by_cases hst : r.state = .releasing
    · have ho : ¬HeldBy [s] r := fun hs => hr ⟨hst, hs⟩
      simp [ho]
    · simp [hst]

end LeafWeb.Executor
