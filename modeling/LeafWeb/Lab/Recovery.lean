import LeafWeb.Lab.RunFences

/-! When a run whose worker died can be claimed again: the takeover is an event of the run, and there
has to be room for it. -/

namespace LeafWeb.Lab

open Lib Transition Table List Option Except

variable {run : String × String} {l : Log} {now : ℤ}

def coalescible (events : Events) (run : String × String) (n : ℕ) : ℕ :=
  ((oldestEvents events run n).filter (removable (oldestEvents events run n))).length

section

variable (hl : l.Fits run) {x : Event}
include hl

lemma insertEvent_ok (x : Event) (now : ℤ) : ∃ events', insertEvent l.events run l.seq x now = .ok events' := by
  have hn : l.events.insert ⟨run, l.seq, x.block, x.kind, x.payload, now⟩ ≠ none := by
    rw [ne_eq, insert_eq_none, isSome_iff_exists]
    rintro ⟨e, he⟩
    obtain ⟨hr, hs⟩ := Prod.ext_iff.mp (find_key he)
    exact (hl.below e (mem_eventsOf.mpr ⟨mem_of_find he, hr⟩)).ne hs
  obtain ⟨events', hi⟩ := ne_none_iff_exists'.mp hn
  exact ⟨events', demand_eq_ok.mpr hi⟩

lemma oldestEvents_insertEvent {events' : Events} {n : ℕ} (hn : n ≤ l.count)
    (h : insertEvent l.events run l.seq x now = .ok events') :
    oldestEvents events' run n = oldestEvents l.events run n := by
  let e : EventRow := ⟨run, l.seq, x.block, x.kind, x.payload, now⟩
  have hr : eventsOf events' run = eventsOf l.events run ++ [e] := (eventsOf_insertEvent h).1
  have hs : (sortOn EventRow.seq (eventsOf l.events run) ++ [e]).Pairwise fun a b => a.seq ≤ b.seq := by
    refine pairwise_append.mpr ⟨pairwise_sortOn _ _, pairwise_singleton _ _, ?_⟩
    intro a ha b hb
    rw [mem_singleton.mp hb]
    exact (hl.below a (mem_sortOn.mp ha)).le
  have hsr : sortOn EventRow.seq (eventsOf events' run) = sortOn EventRow.seq (eventsOf l.events run) ++ [e] := by
    rw [← sortOn_of_pairwise hs]
    apply sortOn_eq_of_perm _ (eventsOf_seq_nodup events' run)
    rw [hr]
    exact (sortOn_perm _ _).symm.append_right _
  rw [oldestEvents, hsr, take_append_of_le_length]
  · rfl
  · rw [length_sortOn, ← hl.counted]
    exact hn

lemma coalesce_ok_iff (now : ℤ) :
    (∃ l', coalesce run l now = .ok l' ∧ l'.count ≤ maxEvents) ↔
      0 < coalescible l.events run (l.count / 2) ∧
        l.count + 1 ≤ maxEvents + coalescible l.events run (l.count / 2) := by
  simp only [coalesce, bind_eq_ok, refuse_eq_ok, demand_eq_ok, pure_eq_ok, exists_const]
  constructor
  · rintro ⟨l', ⟨hr, cutoff, -, kept, -, rfl⟩, hcap⟩
    refine ⟨length_pos_iff.mpr hr, ?_⟩
    simp only [coalescible] at hcap ⊢
    omega
  · rintro ⟨hp, hrm⟩
    have hr := length_pos_iff.mp hp
    obtain ⟨e, he⟩ := exists_mem_of_ne_nil _ hr
    have hc := getLast?_eq_some_getLast (ne_nil_of_mem (mem_of_mem_filter he))
    have hk := (deleteWhere_extends hc rfl).2 hl
    obtain ⟨events, hi⟩ := insertEvent_ok hk (.coalesced (coalescible l.events run (l.count / 2))) now
    refine ⟨_, ⟨hr, _, hc, events, hi, rfl⟩, ?_⟩
    have hm : 1 ≤ maxEvents := by decide
    simp only [coalescible] at hrm ⊢
    omega

lemma logEvent_ok_iff (hc : l.count ≤ maxEvents) :
    (∃ l', logEvent run now l x = .ok l') ↔
      l.count + 2 ≤ maxEvents + coalescible l.events run ((l.count + 1) / 2) := by
  obtain ⟨events', hi⟩ := insertEvent_ok hl x now
  have hf := (insertEvent_extends l hi).2 hl
  simp only [logEvent, hi, bind_eq_ok, ok.injEq, exists_eq_left']
  split_ifs with hfew
  · simp only [pure_eq_ok, exists_eq', true_iff]
    omega
  have hold := oldestEvents_insertEvent hl (n := (l.count + 1) / 2) (by omega) hi
  have hiff := coalesce_ok_iff hf now
  simp only [coalescible, hold] at hiff ⊢
  simp only [bind_eq_ok, refuse_eq_ok, pure_eq_ok, exists_const, not_lt]
  rw [exists_comm]
  simp only [exists_and_left, exists_eq', and_true, hiff]
  omega

end

def checkClaim (tenant runId owner : String) (ttl : ℚ) (buildRevision color : String) (now : ℤ) :
    Except RunError ℤ := do
  pin runId
  pin owner
  pin buildRevision
  checkColor color
  let duration ← leaseTtl ttl
  checkTenant tenant
  later now duration

variable {s : RunStore} {row : RunRow} {tenant runId owner color rev : String} {ttl : ℚ} {expires : ℤ}

lemma claimed_iff (hs : Sound s) (hv : checkClaim tenant runId owner ttl rev color now = .ok expires)
    (hf : s.runs.find (tenant, runId) = some row) (hrn : row.state = .running)
    (he : ¬row.active now) (hsl : activeRuns s tenant now < maxActivePerTenant) :
    (∃ grant s', claim s tenant runId owner ttl rev color now = .ok (some grant, s')) ↔
      row.leaseFence = 0 ∨ row.eventCount + 2 ≤
        maxEvents + coalescible s.events (tenant, runId) ((row.eventCount + 1) / 2) := by
  have hrow := mem_of_find hf
  have hc : claimable row now := by
    simpa [claimable, hrn, RunState.live, RunRow.active] using he
  have hi : (∃ grant s', claim s tenant runId owner ttl rev color now = .ok (some grant, s')) ↔
      ∃ l, takeOver s row now = .ok l := by
    simp only [checkClaim, bind_eq_ok] at hv
    obtain ⟨_, hrun, _, ho, _, hr, _, hcl, duration, hd, _, ht, hl⟩ := hv
    simp only [claim, bind_eq_ok, hrun, ho, hr, hcl, hd, ht, hf,
      filter_some, hc, if_true, if_neg (not_le.mpr hsl)]
    simpa using fun _ _ => ⟨expires, hl⟩
  rw [hi, takeOver]
  split_ifs with hfn
  · rw [logEvent_ok_iff (hs.fits row hrow) (hs.capped row hrow), find_key hf, or_iff_right hfn.ne']
    rfl
  · simp [Nat.eq_zero_of_not_pos hfn]

theorem lost_run_claimed_iff (digest : String → String → String → String) (registryDigest : String)
    (xs : List Transaction) (tenant runId owner : String) (ttl : ℚ) (buildRevision color : String)
    (now expires : ℤ) (row : RunRow)
    (hvalid : checkClaim tenant runId owner ttl buildRevision color now = .ok expires) :
    let s := after (fun s => apply s digest registryDigest) .empty xs
    s.runs.find (tenant, runId) = some row → row.state = .running → ¬row.active now →
    activeRuns s tenant now < maxActivePerTenant →
    ((∃ grant s', claim s tenant runId owner ttl buildRevision color now = .ok (some grant, s')) ↔
      row.leaseFence = 0 ∨ row.eventCount + 2 ≤
        maxEvents + coalescible s.events (tenant, runId) ((row.eventCount + 1) / 2)) := by
  intro s hf hr he hs
  exact claimed_iff (sound_run xs) hvalid hf hr he hs

def Event.control : Event := ⟨none, "note", "1"⟩

structure Uncoalescible (run : String × String) (l : Log) : Prop extends l.Fits run where
  blockless : ∀ e ∈ eventsOf l.events run, e.block = none

lemma log_control (now : ℤ) (hl : Uncoalescible run l) (m : ℕ) (hr : l.count + m < maxEvents) :
    ∃ l', (replicate m .control).foldlM (logEvent run now) l = .ok l' ∧ l'.count = l.count + m ∧
      Uncoalescible run l' := by
  induction m generalizing l with
  | zero => exact ⟨l, rfl, rfl, hl⟩
  | succ m ih =>
    obtain ⟨events, hi⟩ := insertEvent_ok hl.toFits .control now
    have hlog : logEvent run now l .control = .ok ⟨events, l.seq + 1, l.count + 1⟩ := by
      simp only [logEvent, hi, bind_eq_ok, ok.injEq, exists_eq_left']
      rw [if_pos (by omega)]
      rfl
    have hn : Uncoalescible run ⟨events, l.seq + 1, l.count + 1⟩ := by
      refine ⟨(insertEvent_extends l hi).2 hl.toFits, ?_⟩
      intro e he
      rw [(eventsOf_insertEvent hi).1, mem_append, mem_singleton] at he
      rcases he with he | rfl
      · exact hl.blockless e he
      · rfl
    obtain ⟨l', hf, hc, hl'⟩ := ih hn (by simp only; omega)
    refine ⟨l', ?_, by simp only at hc; omega, hl'⟩
    rw [replicate_succ, foldlM_cons, hlog]
    exact hf

def lost (m : ℕ) : List Transaction :=
  takenOver.take 2 ++ [.appendEvents "tenant" "run" "first" 1 (replicate m ⟨none, "note", some "1"⟩) 5]

def claimedRow : RunRow :=
  (RunRow.queued "tenant" "run" ⟨"doc", 1, "g", "r", "o", "i", "a", "b"⟩ none 0).claim "first" "b" "active"
    1000000 0 ⟨.empty, 0, 0⟩

lemma after_lost (m : ℕ) (hm : m < maxEvents) :
    ∃ row, (storeAfter (lost m)).runs.find ("tenant", "run") = some row ∧ row.state = .running ∧
      ¬row.active 1000000 ∧ activeRuns (storeAfter (lost m)) "tenant" 1000000 = 0 ∧ row.leaseFence = 1 ∧
      row.eventCount = m ∧ ∀ n, coalescible (storeAfter (lost m)).events ("tenant", "run") n = 0 := by
  let s := storeAfter (takenOver.take 2)
  have hr : s.runs.rows = [claimedRow] := by decide +kernel
  have hn : eventsOf s.events ("tenant", "run") = [] := by decide +kernel
  have hf : Uncoalescible ("tenant", "run") (claimedRow.log s.events) :=
    ⟨⟨congrArg length hn.symm, by simp [RunRow.log, hn]⟩, by simp [RunRow.log, hn]⟩
  have hp : (replicate m ⟨none, "note", some "1"⟩ : List EventArg).mapM prepare = .ok (replicate m .control) := by
    induction m with
    | zero => rfl
    | succ m ih =>
      rw [replicate_succ, mapM_cons, ih (by omega)]
      rfl
  obtain ⟨l, hfl, hc, hl⟩ := log_control 5 hf m ((Nat.zero_add m).trans_lt hm)
  have hh : holder s "tenant" "run" "first" 1 5 = some claimedRow := by decide +kernel
  have ha : appendEvents s "tenant" "run" "first" 1 (replicate m ⟨none, "note", some "1"⟩) 5 =
      .ok (true, ⟨s.runs.modify ("tenant", "run") (.record l 5) (RunRow.record_key l 5), l.events⟩) := by
    simp only [appendEvents, hp, bind_eq_ok, hh, ok.injEq, exists_eq_left', hfl, pure_eq_ok, and_true]
    exact ⟨(), rfl⟩
  have hs : storeAfter (lost m) =
      ⟨s.runs.modify ("tenant", "run") (.record l 5) (RunRow.record_key l 5), l.events⟩ := by
    rw [storeAfter, lost, after_concat]
    simp [apply, ha, s, commit]
  have hls : (storeAfter (lost m)).runs.rows = [claimedRow.record l 5] := by
    rw [hs]
    change s.runs.rows.map _ = _
    rw [hr]
    rfl
  have hep : ¬(claimedRow.record l 5).active 1000000 := by
    simp [RunRow.active, RunRow.record, claimedRow, RunRow.claim]
  refine ⟨claimedRow.record l 5, find_some.mpr ⟨by simp [hls], rfl⟩, rfl, hep, ?_, rfl,
    hc.trans (Nat.zero_add m), ?_⟩
  · simp [activeRuns, hls, hep]
  intro n
  rw [hs, coalescible, length_eq_zero_iff, filter_eq_nil_iff]
  intro e he
  simp [removable, hl.blockless e (mem_sortOn.mp (mem_of_mem_take he))]

theorem lost_run_claimed_again : ∃ grant s',
    claim (storeAfter (lost 1)) "tenant" "run" "second" 1 "b" "idle" 1000000 = .ok (some grant, s') := by
  obtain ⟨row, hf, hr, he, hn, -, hc, -⟩ := after_lost 1 (by decide)
  refine (lost_run_claimed_iff _ _ (lost 1) _ _ _ _ _ _ _ 2000000 row (by decide +kernel) hf hr
    he (hn.trans_lt (by decide))).mpr (.inr ?_)
  rw [hc]
  exact le_add_right (by decide)

theorem full_run_stays_lost :
    let s := storeAfter (lost 9999)
    ∃ row, s.runs.find ("tenant", "run") = some row ∧ row.state = .running ∧ ¬row.active 1000000 ∧
      activeRuns s "tenant" 1000000 = 0 ∧
      checkClaim "tenant" "run" "second" 1 "b" "idle" 1000000 = .ok 2000000 ∧
      ¬∃ grant s', claim s "tenant" "run" "second" 1 "b" "idle" 1000000 = .ok (some grant, s') := by
  -- With the number in place the store would be evaluated.
  obtain ⟨m, hm⟩ : ∃ m, m = 9999 := ⟨_, rfl⟩
  rw [← hm]
  have hmax : maxEvents = 10000 := rfl
  obtain ⟨row, hf, hr, he, hn, hfn, hc, hz⟩ := after_lost m (by omega)
  have hv : checkClaim "tenant" "run" "second" 1 "b" "idle" 1000000 = .ok 2000000 := by decide +kernel
  refine ⟨row, hf, hr, he, hn, hv, ?_⟩
  rw [claimed_iff (sound_run _) hv hf hr he (hn.trans_lt (by decide)), hfn, hc, hz]
  omega

end LeafWeb.Lab
