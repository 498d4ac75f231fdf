import LeafWeb.Lab.EventLog
import LeafWeb.Lib.Transition

namespace LeafWeb.Lab

open Lib Transition Table List RunRow Option Nat

variable {s s' : RunStore} {row row' : RunRow} {k run : String × String} {now : ℤ}

structure Sound (s : RunStore) : Prop where
  home : ∀ e ∈ s.events.rows, (s.runs.find e.run).isSome
  fits : ∀ row ∈ s.runs.rows, (row.log s.events).Fits row.key
  capped : ∀ row ∈ s.runs.rows, row.eventCount ≤ maxEvents
  fresh : ∀ row ∈ s.runs.rows, row.state = .queued → row.eventCount = 0
  queued : ∀ tenant, queuedRuns s tenant ≤ maxQueuedPerTenant

lemma sound_empty : Sound .empty where
  home e he := by cases he
  fits row hr := by cases hr
  capped row hr := by cases hr
  fresh row hr := by cases hr
  queued tenant := zero_le _

variable {f : RunRow → RunRow} {l l' : Log} {tenant : String} {e : EventRow}
  {hf : ∀ (r : RunRow), (f r).key = r.key} {clock : Option ℤ}

inductive Change (clock : Option ℤ) (s : RunStore) : RunStore → Prop
  | none : Change clock s s
  | enqueue {row : RunRow} {runs : Table key} (hqueued : row.state = .queued)
      (hnew : row.nextSeq = 0 ∧ row.eventCount = 0)
      (hroom : queuedRuns s row.tenantId < maxQueuedPerTenant) (hinsert : s.runs.insert row = some runs) :
      Change clock s { s with runs }
  | rewrite {row : RunRow} {f : RunRow → RunRow} {hf : ∀ r, (f r).key = r.key} {l : Log} {now : ℤ}
      (hclock : clock = some now) (hfind : s.runs.find row.key = some row) (hlog : (f row).log l.events = l)
      (hextends : (row.log s.events).Extends row.key l)
      (hfits : (row.log s.events).Fits row.key → l.Fits row.key)
      (hcap : row.eventCount ≤ maxEvents → (row.state = .queued → row.eventCount = 0) → l.count ≤ maxEvents)
      (hleft : (f row).state ≠ .queued) (hlive : row.state.live)
      (hfence : row.leaseFence ≤ (f row).leaseFence)
      (hactive : ∀ t, now ≤ t → (f row).active t →
        row.active now ∨ activeRuns s row.tenantId now < maxActivePerTenant) :
      Change clock s ⟨s.runs.modify row.key f hf, l.events⟩
  | sweep (tenant : String) (now : ℤ) : Change clock s (sweep s tenant now)

lemma Sound.enqueue {runs : Table key} (hs : Sound s) (hq : row.state = .queued)
    (hnew : row.nextSeq = 0 ∧ row.eventCount = 0) (hrm : queuedRuns s row.tenantId < maxQueuedPerTenant)
    (hi : s.runs.insert row = some runs) : Sound { s with runs } := by
  obtain ⟨hrw, hn⟩ := insert_rows hi
  have hm : ∀ r, r ∈ runs.rows ↔ r ∈ s.runs.rows ∨ r = row := by simp [hrw]
  have hem : eventsOf s.events row.key = [] := by
    rw [eq_nil_iff_forall_not_mem]
    intro e he
    obtain ⟨he, hrun⟩ := mem_eventsOf.mp he
    have hh := hs.home e he
    rw [hrun, hn] at hh
    cases hh
  refine ⟨?_, ?_, ?_, ?_, ?_⟩
  · intro e he
    rw [find_insert hi]
    split_ifs
    · rfl
    · exact hs.home e he
  · intro r hr
    rcases (hm r).mp hr with hr | rfl
    · exact hs.fits r hr
    refine ⟨?_, ?_⟩
    · simp [RunRow.log, hnew, hem]
    · simp [RunRow.log, hem]
  · intro r hr
    rcases (hm r).mp hr with hr | rfl
    · exact hs.capped r hr
    · rw [hnew.2]
      exact zero_le _
  · intro r hr
    rcases (hm r).mp hr with hr | rfl
    · exact hs.fresh r hr
    · exact fun _ => hnew.2
  · intro tenant
    have hold := hs.queued tenant
    simp only [queuedRuns, hrw, countP_append, countP_singleton] at hold hrm ⊢
    by_cases ht : row.tenantId = tenant
    · subst ht
      split_ifs <;> omega
    · simp [ht, hold]

lemma Sound.rewrite (hs : Sound s) (hfn : s.runs.find row.key = some row) (hlog : (f row).log l.events = l)
    (hft : l.Fits row.key) (het : (row.log s.events).Extends row.key l)
    (hcap : l.count ≤ maxEvents) (hl : (f row).state ≠ .queued) :
    Sound ⟨s.runs.modify row.key f hf, l.events⟩ := by
  have hrow : ∀ r ∈ s.runs.rows, r.key = row.key → r = row := fun r hr hk =>
    s.runs.eq_of_key hr (mem_of_find hfn) hk
  refine ⟨?_, ?_, ?_, ?_, ?_⟩
  · intro e he
    rw [find_modify]
    split_ifs with hrun
    · rw [hrun, hfn]
      rfl
    have hsm : eventsOf l.events e.run = eventsOf s.events e.run := het.others e.run hrun
    have ho : e ∈ eventsOf s.events e.run := by
      rw [← hsm]
      exact mem_eventsOf.mpr ⟨he, rfl⟩
    exact hs.home e (mem_eventsOf.mp ho).1
  · refine (forall_modify hf).mpr fun r hr => ⟨?_, ?_⟩
    · intro hk
      rw [hrow r hr hk, hf, hlog]
      exact hft
    · intro hk
      have hsm : eventsOf l.events r.key = eventsOf s.events r.key := het.others r.key hk
      obtain ⟨hc, hb⟩ := hs.fits r hr
      exact ⟨hc.trans (congrArg length hsm.symm), fun e he => hb e (hsm ▸ he)⟩
  · refine (forall_modify hf).mpr fun r hr => ⟨?_, fun _ => hs.capped r hr⟩
    intro hk
    rw [hrow r hr hk]
    exact (congrArg Log.count hlog).trans_le hcap
  · refine (forall_modify hf).mpr fun r hr => ⟨?_, fun _ => hs.fresh r hr⟩
    intro hk hq
    rw [hrow r hr hk] at hq
    exact absurd hq hl
  · intro tenant
    refine le_trans (countP_modify_le hf ?_ fun _ _ _ hp => hp) (hs.queued tenant)
    intro r hr hk hp
    rw [hrow r hr hk, Bool.and_eq_true, decide_eq_true_eq, decide_eq_true_eq] at hp
    exact absurd hp.2 hl

lemma surplus_sublist (now : ℤ) (seen : List String) (rows : List RunRow) :
    (surplus now seen rows).Sublist rows := by
  induction rows generalizing seen with
  | nil => exact .slnil
  | cons r rest ih =>
    unfold surplus
    split_ifs
    · exact (ih _).cons_cons r
    · exact (ih _).cons r

def sweptKeys (s : RunStore) (tenant : String) (now : ℤ) : List (String × String) :=
  (surplus now [] (newestFirst s tenant)).map key

lemma tenant_of_swept (h : k ∈ sweptKeys s tenant now) : k.1 = tenant := by
  obtain ⟨r, hr, rfl⟩ := mem_map.mp h
  have hm := (surplus_sublist now [] _).subset hr
  rw [newestFirst, mem_reverse, mem_sortOn, mem_filter] at hm
  exact of_decide_eq_true hm.2

lemma mem_eventsOf_sweep :
    e ∈ eventsOf (sweep s tenant now).events k ↔ e ∈ eventsOf s.events k ∧
      ¬(e.run ∈ sweptKeys s tenant now ∨ e.run.1 = tenant ∧ e.createdAt < now - hours (7 * 24)) := by
  simp only [mem_eventsOf, sweep, mem_deleteWhere, Bool.or_eq_true, Bool.and_eq_true,
    contains_eq_mem, decide_eq_true_eq]
  tauto

lemma mem_sweep : row ∈ (sweep s tenant now).runs.rows ↔
    ∃ r ∈ s.runs.rows, r.key ∉ sweptKeys s tenant now ∧
      (if r.tenantId = tenant then r.recount (sweep s tenant now).events else r) = row := by
  simp [sweep, mem_updateWhere, mem_deleteWhere, sweptKeys, and_assoc]

lemma find_sweep : (sweep s tenant now).runs.find k = some row ↔
    ∃ r, s.runs.find k = some r ∧ k ∉ sweptKeys s tenant now ∧
      (if r.tenantId = tenant then r.recount (sweep s tenant now).events else r) = row := by
  rw [find_some, mem_sweep]
  constructor
  · rintro ⟨⟨r, hr, hk, rfl⟩, hkey⟩
    have hs : r.key = k := by
      rw [← hkey]
      split_ifs <;> rfl
    exact ⟨r, find_some.mpr ⟨hr, hs⟩, hs ▸ hk, rfl⟩
  · rintro ⟨r, hr, hk, rfl⟩
    obtain ⟨hr, hkey⟩ := find_some.mp hr
    refine ⟨⟨r, hr, hkey ▸ hk, rfl⟩, ?_⟩
    rw [← hkey]
    split_ifs <;> rfl

lemma eventsOf_sweep_other (h : k.1 ≠ tenant) : eventsOf (sweep s tenant now).events k = eventsOf s.events k := by
  simp only [sweep, eventsOf_deleteWhere, filter_eq_self]
  intro e he
  have hr : e.run.1 ≠ tenant := by rwa [(mem_eventsOf.mp he).2]
  have hk : e.run ∉ sweptKeys s tenant now := fun hs => hr (tenant_of_swept hs)
  rw [sweptKeys] at hk
  simp [hr, hk]

lemma length_eventsOf_sweep_le (tenant : String) :
    (eventsOf (sweep s tenant now).events k).length ≤ (eventsOf s.events k).length := by
  simp only [sweep, eventsOf_deleteWhere]
  exact length_filter_le _ _

lemma countP_sweep_le {p : RunRow → Bool} (tenant : String) (hp : ∀ r events, p (recount events r) = p r) :
    (sweep s tenant now).runs.rows.countP p ≤ s.runs.rows.countP p := by
  simp only [sweep, updateWhere, update, countP_map]
  refine le_trans (countP_mono_left fun r _ hr => ?_) filter_sublist.countP_le
  rw [Function.comp_apply] at hr
  split_ifs at hr
  · rwa [hp] at hr
  · exact hr

lemma Sound.sweep (hs : Sound s) (tenant : String) (now : ℤ) : Sound (sweep s tenant now) := by
  refine ⟨?_, ?_, ?_, ?_, ?_⟩
  · intro e he
    have hm : e ∈ eventsOf (Lab.sweep s tenant now).events e.run := mem_eventsOf.mpr ⟨he, rfl⟩
    obtain ⟨hold, hk⟩ := mem_eventsOf_sweep.mp hm
    obtain ⟨r, hr⟩ := isSome_iff_exists.mp (hs.home e (mem_eventsOf.mp hold).1)
    rw [find_sweep.mpr ⟨r, hr, fun h => hk (.inl h), rfl⟩]
    rfl
  · intro row hrow
    obtain ⟨r, hr, -, rfl⟩ := mem_sweep.mp hrow
    split_ifs with ht
    · exact ⟨rfl, fun e he => (hs.fits r hr).below e (mem_eventsOf_sweep.mp he).1⟩
    have hsm : eventsOf (Lab.sweep s tenant now).events r.key = eventsOf s.events r.key := eventsOf_sweep_other ht
    obtain ⟨hcn, hb⟩ := hs.fits r hr
    exact ⟨hcn.trans (congrArg length hsm.symm), fun e he => hb e (hsm ▸ he)⟩
  · intro row hrow
    obtain ⟨r, hr, -, rfl⟩ := mem_sweep.mp hrow
    have hc := hs.capped r hr
    split_ifs
    · exact (length_eventsOf_sweep_le tenant).trans ((hs.fits r hr).counted.symm.trans_le hc)
    · exact hc
  · intro row hrow
    obtain ⟨r, hr, -, rfl⟩ := mem_sweep.mp hrow
    have hf := hs.fresh r hr
    split_ifs
    · intro hq
      have hz : (eventsOf s.events r.key).length = 0 := (hs.fits r hr).counted.symm.trans (hf hq)
      exact le_zero.mp ((length_eventsOf_sweep_le tenant).trans hz.le)
    · exact hf
  · intro tenant'
    exact (countP_sweep_le tenant fun _ _ => rfl).trans (hs.queued tenant')

lemma Sound.change (hs : Sound s) (h : Change clock s s') : Sound s' := by
  cases h with
  | none => exact hs
  | enqueue hq hn hr hi => exact hs.enqueue hq hn hr hi
  | @rewrite row f hf l now _ hfn hlog he hft hc hl =>
    have hrow := mem_of_find hfn
    exact hs.rewrite hfn hlog (hft (hs.fits row hrow)) he (hc (hs.capped row hrow) (hs.fresh row hrow)) hl
  | sweep tenant now => exact hs.sweep tenant now

variable {owner reg color rev actor : String} {fence t called : ℤ} {found : RunRow}
  {digest : String → String → String → String} {runId : String}

lemma holder_eq_some : holder s tenant runId owner fence now = some row ↔
    s.runs.find (tenant, runId) = some row ∧ row.state = .running ∧ row.leaseOwner = some owner ∧
      (row.leaseFence : ℤ) = fence ∧ row.leaseExpiresAt.any (now < ·) := by
  simp [holder, and_assoc]

lemma Change.quiet (hfd : s.runs.find k = some row)
    (hlog : (f row).log s.events = row.log s.events) (hl : (f row).state ≠ .queued)
    (hlv : row.state.live) (hfn : row.leaseFence ≤ (f row).leaseFence)
    (ha : ∀ t, now ≤ t → (f row).active t → row.active now) :
    Change (some now) s { s with runs := s.runs.modify k f hf } := by
  obtain rfl := find_key hfd
  exact .rewrite (l := row.log s.events) rfl hfd hlog (.refl _ _) id (fun hc _ => hc) hl hlv
    hfn fun t ht h => .inl (ha t ht h)

lemma takeOver_extends (h : takeOver s row now = .ok l) :
    (row.log s.events).Extends row.key l ∧ ((row.log s.events).Fits row.key → l.Fits row.key) ∧
      (row.eventCount ≤ maxEvents → l.count ≤ maxEvents) := by
  unfold takeOver at h
  split_ifs at h
  · obtain ⟨he, hf, hc⟩ := logEvent_extends h
    exact ⟨he, hf, fun _ => hc⟩
  · rw [pure_eq_ok] at h
    exact h ▸ ⟨.refl _ _, id, id⟩

variable {ttl : ℚ} {done : Bool} {given : Option Grant}

lemma claim_eq_ok (h : claim s tenant runId owner ttl rev color now = .ok (given, s')) :
    given = none ∧ s' = s ∨
      ∃ row l expires, s.runs.find (tenant, runId) = some row ∧ claimable row now ∧
        activeRuns s tenant now < maxActivePerTenant ∧ takeOver s row now = .ok l ∧
        given = some ⟨owner, row.leaseFence + 1, expires, 0 < row.leaseFence, l.seq - 1⟩ ∧
        s' = ⟨s.runs.modify (tenant, runId) (.claim owner rev color expires now l)
          (claim_key owner rev color expires now l), l.events⟩ := by
  simp only [claim, bind_eq_ok] at h
  obtain ⟨-, -, -, -, -, -, -, -, duration, -, -, -, h⟩ := h
  split at h
  · cases h
    exact .inl ⟨rfl, rfl⟩
  next row hf =>
    obtain ⟨hf, hc⟩ := filter_eq_some_iff.mp hf
    split_ifs at h with hfl
    · cases h
      exact .inl ⟨rfl, rfl⟩
    simp only [bind_eq_ok] at h
    obtain ⟨l, hl, expires, -, rfl, rfl⟩ := h
    exact .inr ⟨row, l, expires, hf, hc, not_le.mp hfl, hl, rfl, rfl⟩

lemma claim_change (h : claim s tenant runId owner ttl rev color now = .ok (given, s')) :
    Change (some now) s s' := by
  rcases claim_eq_ok h with ⟨-, rfl⟩ | ⟨row, l, expires, hf, hc, hr, hl, -, rfl⟩
  · exact .none
  rw [claimable, Bool.and_eq_true] at hc
  have hk := find_key hf
  have ht : row.tenantId = tenant := congrArg Prod.fst hk
  rw [← hk] at hf ⊢
  rw [← ht] at hr
  obtain ⟨he, hft, hcap⟩ := takeOver_extends hl
  exact .rewrite rfl hf rfl he hft (fun h _ => hcap h) (by simp [RunRow.claim])
    hc.1 (le_succ _) fun _ _ _ => .inr hr

lemma live_of_running (h : row.state = .running) : row.state.live := by
  rw [h]
  rfl

lemma active_of_holder (h : holder s tenant runId owner fence now = some row) : row.active now := by
  obtain ⟨-, hr, -, -, hl⟩ := holder_eq_some.mp h
  rw [active, hl, hr]
  rfl

lemma RunRow.active_mono (ht : now ≤ t) (h : row.active t) : row.active now := by
  simp only [active, Bool.and_eq_true, Option.any_eq_true, decide_eq_true_eq] at h ⊢
  obtain ⟨hr, expires, he, hlt⟩ := h
  exact ⟨hr, expires, he, ht.trans_lt hlt⟩

lemma heartbeat_eq_ok (h : heartbeat s tenant runId owner fence ttl now = .ok (done, s')) :
    done = false ∧ s' = s ∨
      done = true ∧ ∃ row expires, holder s tenant runId owner fence now = some row ∧
        s' = { s with
          runs := s.runs.modify (tenant, runId) (.beat expires now) (beat_key expires now) } := by
  simp only [heartbeat, bind_eq_ok] at h
  obtain ⟨duration, -, -, -, h⟩ := h
  split at h
  · cases h
    exact .inl ⟨rfl, rfl⟩
  next row hh =>
    simp only [bind_eq_ok] at h
    obtain ⟨extended, -, rfl, rfl⟩ := h
    exact .inr ⟨rfl, row, _, hh, rfl⟩

lemma finish_eq_ok {state : RunState} (h : finish s tenant runId owner fence state now = .ok (done, s')) :
    done = false ∧ s' = s ∨
      done = true ∧ ¬state.live ∧ ∃ row, holder s tenant runId owner fence now = some row ∧
        s' = { s with
          runs := s.runs.modify (tenant, runId) (.finish state now) (finish_key state now) } := by
  simp only [finish, bind_eq_ok, refuse_eq_ok, exists_const] at h
  obtain ⟨hs, -, -, h⟩ := h
  split at h
  · cases h
    exact .inl ⟨rfl, rfl⟩
  next row hh =>
    cases h
    exact .inr ⟨rfl, hs, row, hh, rfl⟩

lemma appendEvents_eq_ok {events : List EventArg}
    (h : appendEvents s tenant runId owner fence events now = .ok (done, s')) :
    done = false ∧ s' = s ∨
      done = true ∧ ∃ row l, ∃ prepared : List Event, holder s tenant runId owner fence now = some row ∧
        prepared.foldlM (logEvent (tenant, runId) now) (row.log s.events) = .ok l ∧
        s' = ⟨s.runs.modify (tenant, runId) (.record l now) (record_key l now), l.events⟩ := by
  simp only [appendEvents, bind_eq_ok] at h
  obtain ⟨prepared, -, -, -, h⟩ := h
  split at h
  · cases h
    exact .inl ⟨rfl, rfl⟩
  next row hh =>
    simp only [bind_eq_ok] at h
    obtain ⟨l, hl, rfl, rfl⟩ := h
    exact .inr ⟨rfl, row, l, prepared, hh, hl, rfl⟩

lemma requestCancel_eq_ok (h : requestCancel s tenant runId actor now = .ok (done, s')) :
    s' = s ∨ ∃ row, s.runs.find (tenant, runId) = some row ∧ row.state.live ∧
      ((row.state = .queued ∧ ∃ events, insertEvent s.events row.key row.nextSeq .cancelled now = .ok events ∧
          s' = ⟨s.runs.modify (tenant, runId) (.cancel actor now) (cancel_key actor now), events⟩) ∨
        (row.state ≠ .queued ∧ s' = { s with
          runs := s.runs.modify (tenant, runId) (.requestCancel actor now) (requestCancel_key actor now) })) := by
  simp only [requestCancel, bind_eq_ok, refuse_eq_ok, exists_const, demand_eq_ok] at h
  obtain ⟨-, -, -, -, -, row, hr, h⟩ := h
  split_ifs at h with hc hq
  · cases h
    exact .inl rfl
  · simp only [bind_eq_ok] at h
    obtain ⟨events, hi, -, rfl⟩ := h
    rw [not_or, not_not] at hc
    exact .inr ⟨row, hr, hc.1, .inl ⟨hq, events, hi, rfl⟩⟩
  · cases h
    rw [not_or, not_not] at hc
    exact .inr ⟨row, hr, hc.1, .inr ⟨hq, rfl⟩⟩

lemma enqueue_change {pins : Pins} {corpusAuthority : Option CorpusAuthority}
    (h : enqueue s tenant runId pins corpusAuthority now = .ok (found, s')) : Change (some now) s s' := by
  simp only [enqueue, bind_eq_ok, refuse_eq_ok, exists_const, demand_eq_ok] at h
  obtain ⟨hr, runs, hi, -, rfl⟩ := h
  exact .enqueue rfl ⟨rfl, rfl⟩ (not_le.mp hr) hi

lemma create_change {a : CreateArgs} (h : create s digest reg tenant a called now = .ok (found, s')) :
    Change (some now) s s' := by
  simp only [create, bind_eq_ok] at h
  obtain ⟨runId, -, -, -, h⟩ := h
  split at h
  · exact enqueue_change h
  simp only [bind_eq_ok] at h
  obtain ⟨-, -, h⟩ := h
  split at h
  · simp only [bind_refuse, pure_eq_ok, Prod.mk.injEq] at h
    exact h.2.2 ▸ .none
  · rw [bind_refuse] at h
    exact enqueue_change h.2

lemma commit_change {A : Type} {reply : A → Reply} {x : Except RunError (A × RunStore)}
    (h : ∀ a s', x = .ok (a, s') → Change clock s s') : Change clock s (commit s reply x).2 := by
  cases x with
  | error => exact .none
  | ok found => exact h found.1 found.2 rfl

lemma apply_change (s : RunStore) (digest : String → String → String → String) (reg : String)
    (x : Transaction) : Change x.clock s (apply s digest reg x).2 := by
  cases x with
  | create tenant a called now => exact commit_change fun _ _ h => create_change h
  | claim tenant runId owner ttl rev color now => exact commit_change fun _ _ h => claim_change h
  | heartbeat tenant runId owner fence ttl now =>
    refine commit_change fun _ _ h => ?_
    rcases heartbeat_eq_ok h with ⟨-, rfl⟩ | ⟨-, row, expires, hh, rfl⟩
    · exact .none
    · obtain ⟨hf, hr, -⟩ := holder_eq_some.mp hh
      exact .quiet hf rfl (by simp [beat, hr]) (live_of_running hr) le_rfl fun _ _ _ => active_of_holder hh
  | appendEvents tenant runId owner fence events now =>
    refine commit_change fun _ _ h => ?_
    rcases appendEvents_eq_ok h with ⟨-, rfl⟩ | ⟨-, row, l, prepared, hh, hl, rfl⟩
    · exact .none
    obtain ⟨hf, hr, -⟩ := holder_eq_some.mp hh
    have hk := find_key hf
    rw [← hk] at hf hl ⊢
    obtain ⟨he, hft, hcap⟩ := foldlM_logEvent_extends hl
    exact .rewrite rfl hf rfl he hft (fun h _ => hcap h) (by simp [record, hr])
      (live_of_running hr) le_rfl fun _ _ _ => .inl (active_of_holder hh)
  | finish tenant runId owner fence state now =>
    refine commit_change fun _ _ h => ?_
    rcases finish_eq_ok h with ⟨-, rfl⟩ | ⟨-, hs, row, hh, rfl⟩
    · exact .none
    obtain ⟨hf, hr, -⟩ := holder_eq_some.mp hh
    refine .quiet hf rfl ?_ (live_of_running hr) le_rfl fun _ _ _ => active_of_holder hh
    rintro rfl
    exact hs rfl
  | requestCancel tenant runId actor now =>
    refine commit_change fun _ _ h => ?_
    rcases requestCancel_eq_ok h with rfl | ⟨row, hf, hlv, hc⟩
    · exact .none
    rcases hc with ⟨hq, events, hi, rfl⟩ | ⟨hr, rfl⟩
    · have hk := find_key hf
      rw [← hk] at hf ⊢
      obtain ⟨he, hft⟩ := insertEvent_extends (row.log s.events) hi
      refine .rewrite rfl hf rfl he hft ?_ (by simp [cancel]) hlv le_rfl (by simp [active, cancel])
      intro _ hfr
      simp [RunRow.log, hfr hq, maxEvents]
    · exact .quiet hf rfl hr hlv le_rfl fun _ ht h => active_mono ht h
  | sweep tenant now => exact .sweep tenant now

lemma activeRuns_change (h : Change clock s s') (hold : activeRuns s tenant t ≤ maxActivePerTenant)
    (hnow : ∀ now ∈ clock, now ≤ t ∧ activeRuns s tenant now ≤ maxActivePerTenant) :
    activeRuns s' tenant t ≤ maxActivePerTenant := by
  cases h with
  | none => exact hold
  | @enqueue row runs hq hn hrm hi =>
    have hid : row.active t = false := by simp [active, hq]
    simpa [activeRuns, (insert_rows hi).1, hid] using hold
  | sweep tenant' now => exact (countP_sweep_le tenant' fun _ _ => rfl).trans hold
  | @rewrite row f hf l now hcl hfn _ _ _ _ _ _ _ ha =>
    obtain ⟨hle, hc⟩ := hnow now hcl
    have hrow : ∀ r ∈ s.runs.rows, r.key = row.key → r = row :=
      fun r hr hk => s.runs.eq_of_key hr (mem_of_find hfn) hk
    have ht : (f row).tenantId = row.tenantId := congrArg Prod.fst (hf row)
    have hrs : ∀ r ∈ s.runs.rows, r.key ≠ row.key → (decide (r.tenantId = tenant) && r.active t) →
        (decide (r.tenantId = tenant) && r.active now) := by
      intro r _ _ hr
      rw [Bool.and_eq_true] at hr ⊢
      exact ⟨hr.1, active_mono hle hr.2⟩
    by_cases hn : row.tenantId = tenant ∧ (f row).active t
    · rcases ha t hle hn.2 with hw | hrm
      · refine (countP_modify_le hf ?_ hrs).trans hc
        intro r hr hk _
        rw [hrow r hr hk, hw, hn.1]
        simp
      · rw [hn.1] at hrm
        exact (countP_modify_le_succ hf hrs).trans hrm
    · refine (countP_modify_le hf ?_ hrs).trans hc
      intro r hr hk hp
      rw [hrow r hr hk, ht, Bool.and_eq_true, decide_eq_true_eq] at hp
      exact absurd hp hn

structure RunRow.Later (row row' : RunRow) : Prop where
  fence : row.leaseFence ≤ row'.leaseFence
  seq : row.nextSeq ≤ row'.nextSeq
  closed : ¬row.state.live → row'.state = row.state

def NoReuse (s s' : RunStore) (row : RunRow) : Prop :=
  ∀ e ∈ eventsOf s'.events row.key, e.seq < row.nextSeq → e ∈ eventsOf s.events row.key

lemma later_change (h : Change clock s s') (hfd : s.runs.find k = some row) (hfd' : s'.runs.find k = some row') :
    row.Later row' ∧ NoReuse s s' row := by
  have hkey := find_key hfd
  cases h with
  | none =>
    cases hfd.symm.trans hfd'
    exact ⟨⟨le_rfl, le_rfl, fun _ => rfl⟩, fun _ he _ => he⟩
  | enqueue hq hn hrm hi =>
    cases (find_insert_of_find hi hfd).symm.trans hfd'
    exact ⟨⟨le_rfl, le_rfl, fun _ => rfl⟩, fun _ he _ => he⟩
  | sweep tenant now =>
    obtain ⟨r, hr, -, rfl⟩ := find_sweep.mp hfd'
    cases hfd.symm.trans hr
    refine ⟨?_, fun e he _ => (mem_eventsOf_sweep.mp he).1⟩
    split_ifs <;> exact ⟨le_rfl, le_rfl, fun _ => rfl⟩
  | @rewrite row₀ f hf l now _ hfd₀ hlog hext _ _ _ hl hfn =>
    rw [find_modify] at hfd'
    split_ifs at hfd' with hk
    · rw [hk, hfd₀] at hfd hfd'
      cases hfd
      cases hfd'
      refine ⟨⟨hfn, ?_, fun hc => absurd hl hc⟩, hext.old⟩
      exact hext.seq.trans_eq (congrArg Log.seq hlog).symm
    · cases hfd.symm.trans hfd'
      have hs : eventsOf l.events row.key = eventsOf s.events row.key := hext.others row.key (hkey ▸ hk)
      exact ⟨⟨le_rfl, le_rfl, fun _ => rfl⟩, fun e he _ => hs ▸ he⟩

variable {x : Transaction}

lemma sound_run (xs : List Transaction) : Sound (after (fun s => apply s digest reg) .empty xs) :=
  invariant sound_empty (fun s x hs => hs.change (apply_change s digest reg x)) xs

lemma later_run {xs : List Transaction} (hf : s.runs.find k = some row)
    (hk : Along (fun s => apply s digest reg) (fun s x => ((apply s digest reg x).2.runs.find k).isSome) s xs) :
    ∃ row', (after (fun s => apply s digest reg) s xs).runs.find k = some row' ∧
      row.Later row' ∧ NoReuse s (after (fun s => apply s digest reg) s xs) row := by
  induction xs generalizing s row with
  | nil => exact ⟨row, hf, ⟨le_rfl, le_rfl, fun _ => rfl⟩, fun _ he _ => he⟩
  | cons x xs ih =>
    obtain ⟨row₁, hf₁⟩ := isSome_iff_exists.mp hk.1
    have hch := apply_change s digest reg x
    obtain ⟨hl, hold⟩ := later_change hch hf hf₁
    obtain ⟨row', hf', hl', hold'⟩ := ih hf₁ hk.2
    have hkey : row.key = row₁.key := (find_key hf).trans (find_key hf₁).symm
    refine ⟨row', hf', ⟨hl.fence.trans hl'.fence, hl.seq.trans hl'.seq, ?_⟩, ?_⟩
    · intro hc
      have hs := hl.closed hc
      exact (hl'.closed (hs ▸ hc)).trans hs
    intro e he hlt
    rw [hkey] at he
    have hm := hold' e he (hlt.trans_le hl.seq)
    rw [← hkey] at hm
    exact hold e hm hlt

def Transaction.claims : Transaction → Option (String × String)
  | .claim tenant runId .. => some (tenant, runId)
  | _ => none

def Transaction.acts : Transaction → Option ((String × String) × String × ℤ)
  | .heartbeat tenant runId owner fence .. | .appendEvents tenant runId owner fence ..
  | .finish tenant runId owner fence .. => some ((tenant, runId), owner, fence)
  | _ => none

lemma granted {g : Grant} (hx : x.claims = some k) (h : (apply s digest reg x).1 = .claimed (some g)) :
    ∃ row row', s.runs.find k = some row ∧ g.fence = row.leaseFence + 1 ∧
      (apply s digest reg x).2.runs.find k = some row' ∧ row'.leaseFence = g.fence := by
  cases x with
  | claim tenant runId owner ttl rev color now =>
    cases hx
    simp only [apply] at h ⊢
    cases hc : claim s tenant runId owner ttl rev color now with
    | error e =>
      rw [hc] at h
      cases h
    | ok found =>
      rw [hc] at h
      obtain ⟨granted, s'⟩ := found
      cases h
      obtain ⟨hn, -⟩ | ⟨row, l, expires, hf, -, -, -, hg, rfl⟩ := claim_eq_ok hc
      · cases hn
      cases hg
      exact ⟨row, row.claim owner rev color expires now l, hf, rfl,
        find_modify_self (claim_key owner rev color expires now l) hf, rfl⟩
  | _ => cases hx

lemma commit_held {x : Except RunError (Bool × RunStore)} (h : (commit s .held x).1 = .held true) :
    ∃ s', x = .ok (true, s') := by
  cases x with
  | error e => cases h
  | ok found =>
    obtain ⟨done, s'⟩ := found
    cases h
    exact ⟨s', rfl⟩

lemma held (hx : x.acts = some (k, owner, fence)) (h : (apply s digest reg x).1 = .held true) :
    ∃ row, s.runs.find k = some row ∧ row.leaseOwner = some owner ∧ (row.leaseFence : ℤ) = fence := by
  have hh : ∃ now row, holder s k.1 k.2 owner fence now = some row := by
    cases x with
    | heartbeat =>
      cases hx
      obtain ⟨s', h⟩ := commit_held h
      obtain ⟨hno, -⟩ | ⟨-, row, -, hr, -⟩ := heartbeat_eq_ok h
      · cases hno
      · exact ⟨_, row, hr⟩
    | appendEvents =>
      cases hx
      obtain ⟨s', h⟩ := commit_held h
      obtain ⟨hno, -⟩ | ⟨-, row, -, -, hr, -⟩ := appendEvents_eq_ok h
      · cases hno
      · exact ⟨_, row, hr⟩
    | finish =>
      cases hx
      obtain ⟨s', h⟩ := commit_held h
      obtain ⟨hno, -⟩ | ⟨-, -, row, hr, -⟩ := finish_eq_ok h
      · cases hno
      · exact ⟨_, row, hr⟩
    | _ => cases hx
  obtain ⟨now, row, hr⟩ := hh
  obtain ⟨hfn, -, ho, hf, -⟩ := holder_eq_some.mp hr
  exact ⟨row, hfn, ho, hf⟩

lemma active_run (xs : List Transaction) (hc : (xs.filterMap Transaction.clock).Pairwise (· ≤ ·))
    (tenant : String) (t : ℤ) (ht : ∀ now ∈ xs.filterMap Transaction.clock, now ≤ t) :
    activeRuns (after (fun s => apply s digest reg) .empty xs) tenant t ≤
      maxActivePerTenant := by
  induction xs using reverseRecOn generalizing t with
  | nil => exact zero_le _
  | append_singleton xs x ih =>
    rw [filterMap_append, pairwise_append] at hc
    rw [filterMap_append] at ht
    rw [after_concat]
    refine activeRuns_change (apply_change _ digest reg x) ?_ ?_
    · exact ih hc.1 t fun now hn => ht now (mem_append_left _ hn)
    intro now hn
    have hm : now ∈ [x].filterMap Transaction.clock := by
      rw [mem_def] at hn
      simp [hn]
    exact ⟨ht now (mem_append_right _ hm), ih hc.1 now fun earlier he => hc.2.2 earlier he now hm⟩

lemma coalesce_kept (h : coalesce run l now = .ok l') (he : e ∈ l.events.rows) : e ∈ l'.events.rows ∨
      e.block.isSome ∧ ∃ e' ∈ l'.events.rows, e'.run = e.run ∧ e'.block = e.block ∧ e.seq < e'.seq := by
  obtain ⟨het, -⟩ := coalesce_extends h
  by_cases hr : e.run = run
  · rcases het.kept e (mem_eventsOf.mpr ⟨he, hr⟩) with hk | ⟨hb, e', he', hs, hlt⟩
    · exact .inl (mem_eventsOf.mp hk).1
    · obtain ⟨he', hr'⟩ := mem_eventsOf.mp he'
      exact .inr ⟨hb, e', he', hr'.trans hr.symm, hs, hlt⟩
  · have hm : e ∈ eventsOf l.events e.run := mem_eventsOf.mpr ⟨he, rfl⟩
    rw [← het.others e.run hr] at hm
    exact .inl (mem_eventsOf.mp hm).1

theorem runs_fenced (digest : String → String → String → String) (registryDigest : String)
    (xs : List Transaction) (hclock : (xs.filterMap Transaction.clock).Pairwise (· ≤ ·)) :
    let step := fun s => apply s digest registryDigest
    let s := after step .empty xs
    let kept := fun k s x => ((step s x).2.runs.find k).isSome
    -- fences rise from one grant to the next
    (∀ k x ys x' g g', x.claims = some k → x'.claims = some k → (step s x).1 = .claimed (some g) →
      Along step (fun s x => kept k s x) (step s x).2 ys →
      (step (after step (step s x).2 ys) x').1 = .claimed (some g') → g.fence < g'.fence) ∧
    -- one owner and fence can act
    (∀ k x x' pair pair', x.acts = some (k, pair) → x'.acts = some (k, pair') →
      (step s x).1 = .held true → (step s x').1 = .held true → pair = pair') ∧
    -- a closed run stays as it is, and no number is used again
    (∀ k row ys, s.runs.find k = some row → Along step (fun s x => kept k s x) s ys →
      ∃ row', (after step s ys).runs.find k = some row' ∧
        (¬row.state.live → row'.state = row.state) ∧ row.nextSeq ≤ row'.nextSeq ∧
        ∀ e ∈ eventsOf (after step s ys).events k, e.seq < row.nextSeq → e ∈ eventsOf s.events k) ∧
    -- the numbers in the row are those of the stored events
    (∀ row ∈ s.runs.rows, ((eventsOf s.events row.key).map EventRow.seq).Nodup ∧
      (∀ e ∈ eventsOf s.events row.key, e.seq < row.nextSeq) ∧
      row.eventCount = (eventsOf s.events row.key).length ∧ row.eventCount ≤ maxEvents) ∧
    -- coalescing
    (∀ run l l' now, coalesce run l now = .ok l' → ∀ e ∈ l.events.rows, e ∈ l'.events.rows ∨
      e.block.isSome ∧ ∃ e' ∈ l'.events.rows, e'.run = e.run ∧ e'.block = e.block ∧ e.seq < e'.seq) ∧
    -- limits of a tenant
    ∀ tenant, queuedRuns s tenant ≤ maxQueuedPerTenant ∧
      ∀ now, (∀ c ∈ xs.filterMap Transaction.clock, c ≤ now) → activeRuns s tenant now ≤ maxActivePerTenant := by
  intro step s kept
  have hs : Sound s := sound_run xs
  refine ⟨?_, ?_, ?_, ?_, ?_, ?_⟩
  · intro k x ys x' g g' hx hx' hg hk hg'
    obtain ⟨-, row₁, -, -, hf₁, hfn₁⟩ := granted hx hg
    obtain ⟨row₂, hf₂, hl, -⟩ := later_run hf₁ hk
    obtain ⟨row₃, -, hf₃, hfn₃, -⟩ := granted hx' hg'
    cases hf₂.symm.trans hf₃
    rw [hfn₃, ← hfn₁]
    exact lt_succ_of_le hl.fence
  · rintro k x x' ⟨owner, fence⟩ ⟨owner', fence'⟩ hx hx' hh hh'
    obtain ⟨row, hf, ho, hfn⟩ := held hx hh
    obtain ⟨row', hf', ho', hfn'⟩ := held hx' hh'
    cases hf.symm.trans hf'
    exact Prod.ext (mem_unique ho ho') (hfn.symm.trans hfn')
  · intro k row ys hf hk
    obtain ⟨row', hf', hl, hold⟩ := later_run hf hk
    refine ⟨row', hf', hl.closed, hl.seq, ?_⟩
    rw [← find_key hf]
    exact hold
  · intro row hr
    obtain ⟨hc, hb⟩ := hs.fits row hr
    exact ⟨eventsOf_seq_nodup s.events row.key, hb, hc, hs.capped row hr⟩
  · intro run l l' now h e he
    exact coalesce_kept h he
  · intro tenant
    exact ⟨hs.queued tenant, fun now hn => active_run xs hclock tenant now hn⟩

def takenOver : List Transaction :=
  [.create "tenant" ⟨"doc", "run", 1, "g", "o", "i", "a", "b", none, none, false, none⟩ 0 0,
    .claim "tenant" "run" "first" 1 "b" "active" 0,
    .appendEvents "tenant" "run" "first" 1 [⟨some "block", "value", some "1"⟩] 5,
    .claim "tenant" "run" "second" 1 "b" "idle" 1000000,
    .finish "tenant" "run" "second" 2 .finished 1000001]

abbrev storeAfter (xs : List Transaction) : RunStore := after (fun s => apply s (fun _ _ _ => "") "r") .empty xs

theorem taken_over_run_counted :
    ((storeAfter takenOver).runs.rows.map fun row => (row.state, row.leaseFence, row.nextSeq, row.eventCount)) =
        [(.finished, 2, 2, 2)] ∧
      ∀ row ∈ (storeAfter takenOver).runs.rows,
        row.eventCount = (eventsOf (storeAfter takenOver).events row.key).length := by
  have hc : (takenOver.filterMap Transaction.clock).Pairwise (· ≤ ·) := by decide +kernel
  refine ⟨by decide +kernel, fun row hr => ?_⟩
  exact ((runs_fenced (fun _ _ _ => "") "r" takenOver hc).2.2.2.1 row hr).2.2.1

end LeafWeb.Lab
