import LeafWeb.Executor.Capacity

/-! Renewing a session over and over. A renewal moves the end of the lease, and it checks the end of the
capacity claim, which stays where the assignment put it. -/

namespace LeafWeb.Executor

open Lib Transition Table Function Option Plane

structure Renewal where
  (reading placing claiming storing : Turn)

variable (cfg : Settings)

/-- `ControlPlane.renew` without other workers, and whether it returned a lease. -/
def Plane.renew (p : Plane Authority) (worker : ℕ) (sessionId : String) (bindingEpoch : ℤ)
    (r : Renewal) : Bool × Plane Authority :=
  let before := after (step cfg) p
    [.start worker (.renew sessionId bindingEpoch), .resume worker r.reading, .resume worker r.placing,
      .resume worker r.claiming]
  let stores := Event.resume worker r.storing
  let (answer, p') := before.step cfg stores
  ((stores.op cfg before).isSome && answer = .done, p')

def Plane.renewals (p : Plane Authority) (worker : ℕ) (sessionId : String) (bindingEpoch : ℤ) :
    List Renewal → Bool
  | [] => true
  | r :: rs =>
    let (renewed, p') := p.renew cfg worker sessionId bindingEpoch r
    renewed && p'.renewals worker sessionId bindingEpoch rs

def Timely (expiresAt : Option ℤ) : List Renewal → Prop
  | [] => True
  | r :: rs => expiresAt.any (r.reading.now < ·) ∧ Timely (some (r.storing.now + cfg.leaseLifetime)) rs

structure Standing (t : Authority) (s : Session) (c : ClaimRow) : Prop where
  session : t.sessions.find s.sessionId = some s
  active : s.state = .active
  claim : t.claims.find s.claimId = some c
  held : c.state = .active
  slot : ∃ r, t.slots.find s.place = some r ∧ r.state = .claimed ∧ r.currentClaimId = some c.claimId
  host : ∃ h, t.hosts.find s.executorId = some h ∧ h.state = .active

def Unused (p : Plane Authority) : Prop := ∀ l ∈ p.db.leases.rows, l.leaseId < p.minted

variable {cfg} {p : Plane Authority} {worker : ℕ} {s : Session} {c : ClaimRow} {r : Renewal} {task task' : Task}

lemma reads {answer : Answer} {op : Op} (cfg : Settings) (turn : Turn) (ht : p.tasks worker = task)
    (hop : calls cfg p.minted turn task = some op) (hr : apply p.db cfg.heartbeatTimeout op = (answer, p.db))
    (hn : task.next p.minted turn answer = task') :
    ∃ tasks minted, p.minted < minted ∧ tasks worker = task' ∧
      (p.step cfg (.resume worker turn)).2 = ⟨p.db, tasks, minted⟩ := by
  subst ht hn
  refine ⟨update p.tasks worker _, p.minted + p.db.sessions.rows.length + 1, by omega, update_self .., ?_⟩
  simp [step, transact, Event.op, hop, schedule, hr]

lemma before_storing (cfg : Settings) (h : Standing p.db s c) (hi : p.tasks worker = .idle)
    (hl : s.expiresAt.any (r.reading.now < ·)) :
    ∃ slot tasks minted, p.minted < minted ∧ tasks worker = .storing s slot c s.bindingEpoch ∧
      after (step cfg) p
        [.start worker (.renew s.sessionId s.bindingEpoch), .resume worker r.reading,
          .resume worker r.placing, .resume worker r.claiming] = ⟨p.db, tasks, minted⟩ := by
  obtain ⟨row, hrow, -⟩ := h.slot
  obtain ⟨host, hh, -⟩ := h.host
  have hsl : getSlot p.db s.executorId s.slotId = some (row.slot host) := by
    rw [getSlot, show (s.executorId, s.slotId) = s.place from rfl, hrow, bind_some, hh, map_some]
  let p₀ : Plane Authority := ⟨p.db, update p.tasks worker
    (.renewing s.sessionId s.bindingEpoch), p.minted + p.db.sessions.rows.length + 1⟩
  have hs : (p.step cfg (.start worker (.renew s.sessionId s.bindingEpoch))).2 = p₀ := by
    simp [p₀, step, transact, Event.op, schedule, hi, Job.task]
  obtain ⟨tasks₁, minted₁, hlt₁, ht₁, hr⟩ := reads cfg r.reading (p := p₀)
    (update_self ..) rfl (Prod.ext (congrArg Answer.session h.session) rfl) (if_pos hl)
  obtain ⟨tasks₂, minted₂, hlt₂, ht₂, hp⟩ := reads cfg r.placing (p := ⟨p.db, tasks₁, minted₁⟩)
    ht₁ rfl (Prod.ext (congrArg Answer.slot hsl) rfl) rfl
  obtain ⟨tasks₃, minted₃, hlt₃, ht₃, hc⟩ := reads cfg r.claiming
    (p := ⟨p.db, tasks₂, minted₂⟩) ht₂ rfl (Prod.ext (congrArg Answer.claim h.claim) rfl)
    (if_pos h.held)
  have hlt₀ : p.minted < p₀.minted := by
    simp only [p₀]
    omega
  refine ⟨row.slot host, tasks₃, minted₃, hlt₀.trans (hlt₁.trans (hlt₂.trans hlt₃)), ht₃, ?_⟩
  rw [after_cons, hs, after_cons, hr, after_cons, hp, after_cons, hc, after_nil]

lemma renew_ok_iff {l : Lease} {t : Authority} (h : Standing t s c)
    (hs : s.leaseSequence < l.sequence) (hn : ∀ l' ∈ t.leases.rows, l'.leaseId ≠ l.leaseId) :
    (∃ t', renew t s.sessionId s.bindingEpoch l = .ok t') ↔ l.notBefore ≤ c.expiresAt := by
  have ha : (t.sessions.find s.sessionId).any (renewable t s.bindingEpoch l) ↔ l.notBefore ≤ c.expiresAt := by
    simp [h.session, renewable, h.active, hs, h.claim, h.held]
  have hi : (endLeases t s.sessionId .superseded).insert (l.row s.sessionId) ≠ none := by
    rw [ne_eq, insert_eq_none, endLeases, find_updateWhere, isSome_map, isSome_iff_exists]
    rintro ⟨l', hl'⟩
    exact hn l' (mem_of_find hl') (find_key hl')
  obtain ⟨leases, hl⟩ := ne_none_iff_exists'.mp hi
  simp only [renew, bind_refuse, bind_demand, ha, hl]
  simp

lemma renew_spec (cfg : Settings) (h : Standing p.db s c) (hid : p.tasks worker = .idle)
    (hu : Unused p) (hl : s.expiresAt.any (r.reading.now < ·)) :
    ∃ renewed p', p.renew cfg worker s.sessionId s.bindingEpoch r = (renewed, p') ∧
      (renewed ↔ r.storing.now ≤ c.expiresAt) ∧
      (renewed → p'.tasks worker = .idle ∧ Unused p' ∧ ∃ l : Lease,
        l.expiresAt = r.storing.now + cfg.leaseLifetime ∧ Standing p'.db (s.leased l) c) := by
  obtain ⟨slot, tasks, minted, hlt, ht, hb⟩ := before_storing cfg h hid hl
  let l := leaseFor cfg s slot c r.storing.now (s.leaseSequence + 1) minted
  have hn : ∀ l' ∈ p.db.leases.rows, l'.leaseId ≠ l.leaseId := fun l' hl' => ((hu l' hl').trans hlt).ne
  have hiff := renew_ok_iff (l := l) h (lt_add_one _) hn
  have hop : calls cfg minted r.storing (.storing s slot c s.bindingEpoch) =
      some (.renew s.sessionId s.bindingEpoch l) := rfl
  refine ⟨_, _, rfl, ?_⟩
  simp only [hb, Event.op, ht, hop, apply, isSome_some, Bool.true_and, decide_eq_true_eq]
  constructor
  · rw [← show l.notBefore = r.storing.now from rfl, ← hiff]
    constructor
    · exact done_ok
    rintro ⟨t', ht'⟩
    rw [ht']
    rfl
  · intro hd
    obtain ⟨t', ht'⟩ := done_ok hd
    obtain ⟨s', leases, -, -, hi, rfl⟩ := renew_eq_ok ht'
    rw [ht']
    have hm : minted < minted + p.db.sessions.rows.length + 1 := by omega
    refine ⟨?_, ?_, l, rfl, ?_⟩
    · rw [schedule, update_self]
      change (tasks worker).next _ _ _ = _
      rw [ht]
      rfl
    · refine (forall_insert hi).mpr ⟨?_, hm⟩
      refine (forall_updateWhere (LeaseRow.close_id .superseded)).mpr fun l' hl' => ?_
      have hold := ((hu l' hl').trans hlt).trans hm
      exact ⟨fun _ => hold, fun _ => hold⟩
    · refine ⟨?_, h.active, h.claim, h.held, h.slot, h.host⟩
      exact find_modify_self (Session.leased_id l) h.session

theorem renewals_succeed_iff (cfg : Settings) (p : Plane Authority) (worker : ℕ) (s : Session)
    (c : ClaimRow) (rs : List Renewal) (hs : Standing p.db s c) (hidle : p.tasks worker = .idle)
    (hunused : Unused p) (htimely : Timely cfg s.expiresAt rs) :
    p.renewals cfg worker s.sessionId s.bindingEpoch rs ↔ ∀ r ∈ rs, r.storing.now ≤ c.expiresAt := by
  induction rs generalizing p s with
  | nil => simp [renewals]
  | cons r rs ih =>
    obtain ⟨renewed, p', heq, hi, hn⟩ := renew_spec cfg hs hidle hunused htimely.1
    rw [renewals, heq, List.forall_mem_cons, ← hi, Bool.and_eq_true]
    refine and_congr_right fun hr => ?_
    obtain ⟨hidle', hunused', l, he, hs'⟩ := hn hr
    refine ih p' (s.leased l) hs' hidle' hunused' ?_
    rw [Session.leased, he]
    exact htimely.2

def Renewal.at (now : ℤ) : Renewal :=
  ⟨.smooth now "slot-1", .smooth now "slot-1", .smooth now "slot-1", .smooth now "slot-1"⟩

def boundSession : Session :=
  ⟨5, "tenant", "session", "host", "slot-1", 4, 1, "sha256:c", "sha256:a", "sha256:a", "sha256:r", "tool",
    .active, some 8, 1, some 60, some 0⟩

theorem renewed_within_claim :
    let p := after (step .usual) .empty assigned
    Standing p.db boundSession ⟨4, "host", "slot-1", 3, 60, .active⟩ ∧
      p.renewals .usual 0 "session" 1 [.at 30, .at 60] := by
  intro p
  have hs : Standing p.db boundSession ⟨4, "host", "slot-1", 3, 60, .active⟩ := by
    refine ⟨by decide +kernel, rfl, by decide +kernel, rfl, ⟨_, rfl, by decide +kernel⟩, ⟨_, rfl, ?_⟩⟩
    decide +kernel
  have hu : ∀ l ∈ p.db.leases.rows, l.leaseId < p.minted := by decide +kernel
  refine ⟨hs, (renewals_succeed_iff .usual p 0 _ _ [.at 30, .at 60] hs ?_ hu ⟨?_, ?_, trivial⟩).mpr ?_⟩
  all_goals decide +kernel

theorem second_renewal_refused :
    let p := after (step .usual) .empty assigned
    p.db.sessions.find "session" = some boundSession ∧ p.renewals .usual 0 "session" 1 [.at 30] ∧
      Timely .usual boundSession.expiresAt [.at 30, .at 61] ∧
        ¬p.renewals .usual 0 "session" 1 [.at 30, .at 61] := by
  refine ⟨?_, ?_, ⟨?_, ?_, trivial⟩, ?_⟩
  all_goals decide +kernel

end LeafWeb.Executor
