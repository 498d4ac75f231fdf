import LeafWeb.Executor.Capacity

namespace LeafWeb.Executor

open Lib Transition Table Function List Option Plane

def Op.creates : Op → Option Session
  | .createSession s _ => some s
  | _ => none

variable (cfg : Settings)

/-- A session is bound again only once its releases are no longer pending. -/
def ReleasesFirst (p : Plane Authority) (e : Event) : Prop :=
  ∀ s ∈ (e.op cfg p).bind Op.creates, ¬pending p.db s.sessionId
  deriving Decidable

structure Fences (p : Plane Authority) (e : Event) (o : OutboxRow) (s : Session) : Prop where
  reclaims : ∃ op ∈ e.op cfg p, op.reclaims
  found : s ∈ p.db.sessions.rows
  live : s.state.live
  entity : o.entityId = s.sessionId
  asked : o ∈ (p.step cfg e).2.db.outbox.rows
  new : o ∉ p.db.outbox.rows

variable {p : Plane Authority} {e : Event} {op : Op} {s : Session}

section

variable {cfg}

lemma step_db_none (h : e.op cfg p = none) : (p.step cfg e).2.db = p.db := by
  simp [step, transact, h]

lemma step_some (h : e.op cfg p = some op) :
    (p.step cfg e).1 = (apply p.db cfg.heartbeatTimeout op).1 ∧
      (p.step cfg e).2.db = (apply p.db cfg.heartbeatTimeout op).2 := by
  simp [step, transact, h]

lemma assignment_minted {dbNow : ℤ} (h : e.op cfg p = some (.createSession s dbNow)) :
    s.assignmentId = p.minted := by
  cases e with
  | start | crash => cases h
  | host call => cases call <;> cases h
  | resume worker turn =>
    change calls cfg p.minted turn (p.tasks worker) = _ at h
    unfold calls at h
    split at h
    case h_4 =>
      split_ifs at h
      cases h
      rfl
    all_goals cases h

lemma step_sessions (s' : Session) (hs' : s' ∈ (p.step cfg e).2.db.sessions.rows) :
    (∃ s ∈ p.db.sessions.rows, s'.Follows s) ∨
      ∃ s ∈ (e.op cfg p).bind Op.creates, s'.Follows s.bound ∧ s.assignmentId = p.minted := by
  cases hop : e.op cfg p with
  | none =>
    rw [step_db_none hop] at hs'
    exact .inl ⟨s', hs', .refl s'⟩
  | some op =>
    rw [(step_some hop).2] at hs'
    rcases apply_sessions _ _ _ s' hs' with hold | ⟨s, dbNow, rfl, hf⟩
    · exact .inl hold
    · exact .inr ⟨s, rfl, hf, assignment_minted hop⟩

lemma apply_outbox (t : Authority) (timeout : ℤ) (hop : ¬op.reclaims) :
    ∀ o ∈ (apply t timeout op).2.outbox.rows, o.publishedAt = none → o ∈ t.outbox.rows := by
  apply apply_induction
    (I := fun u => ∀ o ∈ u.outbox.rows, o.publishedAt = none → o ∈ t.outbox.rows)
  · exact fun o ho _ => ho
  intro u u' _ hI hm
  cases hm with
  | registerHost | setReadiness | heartbeat | claim | createSession | activate | renew | finish =>
    exact hI
  | fence => exact absurd rfl hop
  | abortClaim =>
    unfold abortClaim
    split <;> exact hI
  | completeReclaim sid dbNow =>
    unfold completeReclaim
    split
    · exact hI
    intro o ho hon
    obtain ⟨o₀, ho₀, rfl⟩ := mem_map.mp ho
    split_ifs at hon ⊢
    · cases hon
    · exact hI o₀ ho₀ hon
  | drain hd =>
    simp only [drain, bind_refuse] at hd
    obtain ⟨-, -, rfl⟩ := hd
    exact hI

end

section

variable {cfg}

structure Assigned (p : Plane Authority) : Prop where
  minted : ∀ s ∈ p.db.sessions.rows, s.assignmentId < p.minted
  once : ∀ s ∈ p.db.sessions.rows, ∀ s' ∈ p.db.sessions.rows, s.assignmentId = s'.assignmentId → s = s'

lemma minted_lt (cfg : Settings) (p : Plane Authority) (e : Event) : p.minted < (p.step cfg e).2.minted := by
  simp only [step]
  omega

lemma Assigned.step (h : Assigned p) (e : Event) : Assigned (p.step cfg e).2 where
  minted s' hs' := by
    have hlt := minted_lt cfg p e
    rcases step_sessions s' hs' with ⟨s, hs, hf⟩ | ⟨s, -, hf, hid⟩
    · have hold := h.minted s hs
      rw [hf.assignment]
      omega
    · rw [hf.assignment]
      exact hid ▸ hlt
  once s₁' h₁ s₂' h₂ hsm := by
    apply eq_of_key _ h₁ h₂
    rcases step_sessions s₁' h₁ with ⟨s₁, hs₁, hf₁⟩ | ⟨s₁, hc₁, hf₁, hid₁⟩
    · rcases step_sessions s₂' h₂ with ⟨s₂, hs₂, hf₂⟩ | ⟨s₂, -, hf₂, hid₂⟩
      · rw [hf₁.assignment, hf₂.assignment] at hsm
        rw [hf₁.session, hf₂.session, h.once s₁ hs₁ s₂ hs₂ hsm]
      · rw [hf₁.assignment, hf₂.assignment] at hsm
        exact absurd (h.minted s₁ hs₁) (by rw [hsm]; exact hid₂ ▸ lt_irrefl _)
    · rcases step_sessions s₂' h₂ with ⟨s₂, hs₂, hf₂⟩ | ⟨s₂, hc₂, hf₂, -⟩
      · rw [hf₁.assignment, hf₂.assignment] at hsm
        exact absurd (h.minted s₂ hs₂) (by rw [← hsm]; exact hid₁ ▸ lt_irrefl _)
      · rw [hf₁.session, hf₂.session, mem_unique hc₁ hc₂]

def Ended (p : Plane Authority) (assignmentId : ℕ) : Prop :=
  assignmentId < p.minted ∧ ∀ s ∈ p.db.sessions.rows, s.assignmentId = assignmentId → ¬s.state.live

lemma Ended.step {assignmentId : ℕ} (h : Ended p assignmentId) (e : Event) :
    Ended (p.step cfg e).2 assignmentId := by
  refine ⟨h.1.trans (minted_lt cfg p e), ?_⟩
  rintro s' hs' rfl hl
  rcases step_sessions s' hs' with ⟨s, hs, hf⟩ | ⟨s, -, hf, hid⟩
  · exact h.2 s hs hf.assignment.symm (hf.live hl)
  · exact absurd h.1 (by rw [hf.assignment]; exact hid ▸ lt_irrefl _)

lemma Assigned.ended (h : Assigned p) (hs : s ∈ p.db.sessions.rows)
    (hi : s.state = .invalid) : Ended p s.assignmentId := by
  refine ⟨h.minted s hs, fun s' hs' hsm hl => ?_⟩
  rw [h.once s' hs' s hs hsm, hi] at hl
  cases hl

end

def Next.parting : Next → List Session
  | .sweep rest => rest
  | _ => []

def Task.parting : Task → List Session
  | .releasing _ next | .invalidating _ _ next | .completing _ next => next.parting
  | .locating s next | .asking s next => s :: next.parting
  | _ => []

def Answer.parting : Answer → List Session
  | .session found => found.toList
  | .sessions found => found
  | _ => []

def Task.ends : Task → Bool
  | .releasing .. | .invalidating .. | .sweeping .. => true
  | _ => false

lemma claim_parting (turn : Turn) (r : Request) (epoch now : ℤ) : (Task.claim turn r epoch now).parting = [] := by
  unfold Task.claim
  split_ifs <;> rfl

lemma next_task_parting (turn : Turn) (next : Next) : ∀ s ∈ (next.task turn).parting, s ∈ next.parting := by
  intro s hs
  cases next with
  | stop | assign => cases hs
  | claim r epoch now =>
    rw [Next.task, claim_parting] at hs
    cases hs
  | sweep rest => cases rest <;> exact hs

lemma next_parting (minted : ℕ) (turn : Turn) (task : Task) (answer : Answer) :
    ∀ s ∈ (task.next minted turn answer).parting, s ∈ task.parting ∨ task.ends ∧ s ∈ answer.parting := by
  intro s hs
  have hi : ∀ {P : Prop}, s ∈ Task.idle.parting → P := fun h => by cases h
  cases task with
  | releasing sid next | invalidating sid epoch next =>
    cases answer with
    | session found =>
      cases found with
      | none => exact .inl (next_task_parting turn next s hs)
      | some s' =>
        rcases mem_cons.mp hs with rfl | hs
        · exact .inr ⟨rfl, mem_cons_self⟩
        · exact .inl hs
    | _ => exact hi hs
  | sweeping idleTimeout =>
    cases answer with
    | sessions found => exact .inr ⟨rfl, next_task_parting turn (.sweep found) s hs⟩
    | _ => exact hi hs
  | locating s' next =>
    cases answer with
    | slot found =>
      cases found with
      | some slot => exact .inl hs
      | none =>
        cases next with
        | sweep rest =>
          exact .inl (mem_cons_of_mem _ (next_task_parting turn (.sweep rest) s hs))
        | _ => exact hi hs
    | _ => cases next <;> exact hi hs
  | asking s' next =>
    simp only [Task.next] at hs
    split_ifs at hs
    · exact .inl (mem_cons_of_mem _ hs)
    · exact hi hs
  | completing sid next => exact .inl (next_task_parting turn next s hs)
  | assigning r epoch =>
    cases answer with
    | session found =>
      simp only [Task.next] at hs
      split at hs
      · rw [claim_parting] at hs
        cases hs
      · split_ifs at hs <;> cases hs
    | _ => exact hi hs
  | claiming r epoch now attempts =>
    cases answer with
    | claimed found =>
      cases found with
      | some found => cases hs
      | none => rcases attempts with _ | _ | attempts <;> cases hs
    | _ => exact hi hs
  | creating | loading | activating =>
    simp only [Task.next] at hs
    split_ifs at hs <;> cases hs
  | rebinding r =>
    cases answer with
    | session found => cases found <;> cases hs
    | _ => exact hi hs
  | renewing sid epoch =>
    cases answer with
    | session found =>
      cases found with
      | none => cases hs
      | some s' =>
        simp only [Task.next] at hs
        split_ifs at hs <;> cases hs
    | _ => exact hi hs
  | renewingSlot s' epoch =>
    cases answer with
    | slot found => cases found <;> cases hs
    | _ => exact hi hs
  | renewingClaim s' slot epoch =>
    cases answer with
    | claim found =>
      cases found with
      | none => cases hs
      | some c =>
        simp only [Task.next] at hs
        split_ifs at hs <;> cases hs
    | _ => exact hi hs
  | idle | aborting | storing => cases hs

section

variable {cfg} {events : List Event}

abbrev reached (cfg : Settings) (events : List Event) : Plane Authority := after (step cfg) .empty events

lemma invalid_of_not_live (h : ¬s.state.live) : s.state = .invalid := by
  cases hs : s.state <;> simp_all [SessionState.live]

def Traced (cfg : Settings) (events : List Event) : Prop :=
  ∀ o ∈ (reached cfg events).db.outbox.rows, o.publishedAt = none →
    ∀ s ∈ (reached cfg events).db.sessions.rows, s.sessionId = o.entityId → s.state = .invalid ∧
      ∃ before e later s₀, events = before ++ e :: later ∧ Fences cfg (reached cfg before) e o s₀ ∧ s.Follows s₀

lemma fences_of_new {o : OutboxRow} (hn : o ∉ p.db.outbox.rows)
    (ho : o ∈ (p.step cfg e).2.db.outbox.rows) (hon : o.publishedAt = none)
    (hs : s ∈ (p.step cfg e).2.db.sessions.rows) (hid : s.sessionId = o.entityId) :
    s.state = .invalid ∧ ∃ s₀, Fences cfg p e o s₀ ∧ s.Follows s₀ := by
  have ha := ho
  cases hop : e.op cfg p with
  | none =>
    rw [step_db_none hop] at ho
    exact absurd ho hn
  | some op =>
    rw [(step_some hop).2] at ho hs
    by_cases hr : op.reclaims
    · have hrl := hr
      cases op with
      | reclaim now idleBefore locked dbNow event =>
        simp only [apply] at ho hs
        cases hok : reclaimInstantSessions p.db now idleBefore locked dbNow event with
        | error err =>
          rw [hok] at ho
          exact absurd ho hn
        | ok found =>
          rw [hok] at ho hs
          obtain ⟨hrc, -⟩ := reclaim_eq_ok hok
          rcases hrc.added o ho with hold | ⟨-, hm⟩
          · exact absurd hold hn
          obtain ⟨s₀, hf, hk, hl⟩ := eligible_found hm
          have hs' : found.2.sessions.find o.entityId = some s := find_some.mpr ⟨hs, hid⟩
          rw [hrc.sessions, hf, map_some, hk, if_pos hm] at hs'
          obtain rfl := some.inj hs'
          refine ⟨rfl, s₀, ⟨⟨_, hop, hr⟩, mem_of_find hf, ?_, hk.symm, ha, hn⟩, s₀.invalidate_follows⟩
          exact (Bool.and_eq_true_iff.mp hl).1
      | _ => cases hrl
    · exact absurd (apply_outbox _ _ hr o ho hon) hn

lemma Traced.step (h : Traced cfg events) (hfr : ReleasesFirst cfg (reached cfg events) e) :
    Traced cfg (events ++ [e]) := by
  intro o ho hop s' hs' hid
  rw [reached, after_concat] at ho hs'
  by_cases hold : o ∈ (reached cfg events).db.outbox.rows
  · rcases step_sessions s' hs' with ⟨s, hs, hf⟩ | ⟨s, hs, hf, -⟩
    · obtain ⟨hi, before, e', later, s₀, rfl, hfn, hs₀⟩ := h o hold hop s hs (hf.session.symm.trans hid)
      refine ⟨invalid_of_not_live fun hl => ?_, before, e', later ++ [e], s₀, by simp, hfn, hf.trans hs₀⟩
      have hl := hf.live hl
      rw [hi] at hl
      cases hl
    · exact absurd ⟨o, hold, hid.symm.trans hf.session, hop⟩ (hfr s hs)
  · obtain ⟨hi, s₀, hfn, hf⟩ := fences_of_new hold ho hop hs' hid
    exact ⟨hi, events, e, [], s₀, rfl, hfn, hf⟩

lemma reclaim_returns {found : List Session} (hop : e.op cfg p = some op) (hr : op.reclaims)
    (hf : (p.step cfg e).1 = .sessions found) (hs : s ∈ found) :
    s ∈ (p.step cfg e).2.db.sessions.rows ∧ pending (p.step cfg e).2.db s.sessionId := by
  rw [(step_some hop).2]
  rw [(step_some hop).1] at hf
  cases op with
  | reclaim now idleBefore locked dbNow event =>
    simp only [apply] at hf ⊢
    cases hok : reclaimInstantSessions p.db now idleBefore locked dbNow event with
    | error err =>
      rw [hok] at hf
      cases hf
    | ok returned =>
      rw [hok] at hf
      cases hf
      obtain ⟨hfn, hp⟩ := ((reclaim_eq_ok hok).2 s).mp hs
      exact ⟨mem_of_find hfn, hp⟩
  | _ => cases hr

lemma finish_returns {expectedEpoch : Option ℤ} {sid : String} (hop : e.op cfg p = some op)
    (ha : apply p.db cfg.heartbeatTimeout op = commit p.db .session (finishSession p.db sid expectedEpoch))
    (hs : s ∈ (p.step cfg e).1.parting) : s ∈ (p.step cfg e).2.db.sessions.rows ∧ s.state = .invalid := by
  rw [(step_some hop).2]
  rw [(step_some hop).1] at hs
  rw [ha] at hs ⊢
  cases hok : finishSession p.db sid expectedEpoch with
  | error err =>
    rw [hok] at hs
    cases hs
  | ok returned =>
    obtain ⟨found, t'⟩ := returned
    rw [hok] at hs
    rcases finishSession_eq_ok hok with ⟨-, rfl, -⟩ | ⟨s₀, hf, rfl, rfl, rfl⟩
    · cases hs
    obtain rfl := mem_singleton.mp hs
    refine ⟨mem_of_find (k := s₀.sessionId) ((find_finish _).trans ?_), rfl⟩
    rw [hf, map_some, if_pos rfl]

lemma ends_returns {turn : Turn} {worker : ℕ} (htr : Traced cfg (events ++ [e])) (he : e = .resume worker turn)
    (hen : ((reached cfg events).tasks worker).ends) (hs : s ∈ ((reached cfg events).step cfg e).1.parting) :
    s ∈ ((reached cfg events).step cfg e).2.db.sessions.rows ∧ s.state = .invalid := by
  have hc : e.op cfg (reached cfg events) =
      calls cfg (reached cfg events).minted turn ((reached cfg events).tasks worker) := by
    rw [he]
    rfl
  cases ht : (reached cfg events).tasks worker with
  | releasing sid next | invalidating sid epoch next =>
    rw [ht] at hc
    exact finish_returns hc rfl hs
  | sweeping idleTimeout =>
    rw [ht] at hc
    cases ha : ((reached cfg events).step cfg e).1 with
    | sessions found =>
      rw [ha] at hs
      obtain ⟨hm, o, ho, hid, hop⟩ := reclaim_returns hc rfl ha hs
      refine ⟨hm, ?_⟩
      rw [← after_concat] at ho hm
      exact (htr o ho hop s hm hid.symm).1
    | session found =>
      rw [(step_some hc).1] at ha
      simp only [apply] at ha
      cases hok : reclaimInstantSessions _ _ _ _ _ _ <;> rw [hok] at ha <;> cases ha
    | _ =>
      rw [ha] at hs
      cases hs
  | _ =>
    rw [ht] at hen
    cases hen

lemma schedule_parting (p : Plane Authority) (answer : Answer) (e : Event) (worker : ℕ) :
    ∀ s ∈ (schedule p answer e worker).parting, s ∈ (p.tasks worker).parting ∨
      ∃ turn, e = .resume worker turn ∧ (p.tasks worker).ends ∧ s ∈ answer.parting := by
  intro s hs
  cases e with
  | host call => exact .inl hs
  | start w job =>
    simp only [schedule] at hs
    split_ifs at hs
    · by_cases hw : worker = w
      · subst hw
        rw [update_self] at hs
        cases job <;> cases hs
      · rw [update_of_ne hw] at hs
        exact .inl hs
    · exact .inl hs
  | crash w =>
    simp only [schedule] at hs
    by_cases hw : worker = w
    · subst hw
      rw [update_self] at hs
      cases hs
    · rw [update_of_ne hw] at hs
      exact .inl hs
  | resume w turn =>
    simp only [schedule] at hs
    by_cases hw : worker = w
    · subst hw
      rw [update_self] at hs
      exact (next_parting _ _ _ _ s hs).imp_right fun h => ⟨turn, rfl, h⟩
    · rw [update_of_ne hw] at hs
      exact .inl hs

lemma assigned_reached (cfg : Settings) (events : List Event) : Assigned (reached cfg events) := by
  apply invariant
  · exact ⟨fun s hs => (by cases hs), fun s hs => (by cases hs)⟩
  · exact fun p e h => h.step e

def Parted (cfg : Settings) (events : List Event) : Prop :=
  ∀ worker, ∀ s ∈ ((reached cfg events).tasks worker).parting, Ended (reached cfg events) s.assignmentId

lemma Parted.step (h : Parted cfg events) (ht : Traced cfg (events ++ [e])) : Parted cfg (events ++ [e]) := by
  have ha := assigned_reached cfg (events ++ [e])
  intro worker s hs
  rw [reached, after_concat] at hs ha ⊢
  rcases schedule_parting _ _ e worker s hs with hold | ⟨turn, he, hen, han⟩
  · exact (h worker s hold).step e
  · obtain ⟨hm, hi⟩ := ends_returns ht he hen han
    exact ha.ended hm hi

lemma traced_parted (cfg : Settings) (events : List Event)
    (h : Along (step cfg) (ReleasesFirst cfg) .empty events) : Traced cfg events ∧ Parted cfg events := by
  apply run_along (I := fun events => Traced cfg events ∧ Parted cfg events) _ _ events h
  · exact ⟨fun o ho => (by cases ho), fun worker s hs => (by cases hs)⟩
  rintro events e ⟨ht, hp⟩ hf
  have ht' := ht.step hf
  exact ⟨ht', hp.step ht'⟩

end

def Task.asks : Task → Option Session
  | .asking s _ => some s
  | _ => none

theorem releases_are_fenced (cfg : Settings) (events : List Event) (e : Event)
    (h : Along (step cfg) (ReleasesFirst cfg) .empty (events ++ [e])) :
    (∀ op ∈ e.op cfg (reached cfg events), op.reclaims →
      ∀ found, ((reached cfg events).step cfg e).1 = .sessions found → ∀ s ∈ found,
        s.state = .invalid ∧ ∃ before e' later o s₀, events ++ [e] = before ++ e' :: later ∧
          Fences cfg (reached cfg before) e' o s₀ ∧
            o ∈ (reached cfg (events ++ [e])).db.outbox.rows ∧ o.publishedAt = none ∧
              s.sessionId = s₀.sessionId ∧ s.assignmentId = s₀.assignmentId ∧ s.place = s₀.place) ∧
      ∀ worker, ∀ s ∈ ((reached cfg (events ++ [e])).tasks worker).asks,
        ∀ r ∈ (reached cfg (events ++ [e])).db.sessions.rows, r.assignmentId = s.assignmentId → ¬r.state.live := by
  obtain ⟨htr, hpr⟩ := traced_parted cfg (events ++ [e]) h
  constructor
  · intro op hop hr found hfd s hs
    obtain ⟨hm, o, ho, hid, hon⟩ := reclaim_returns hop hr hfd hs
    rw [← after_concat] at ho hm
    obtain ⟨hi, before, e', later, s₀, hrun, hfn, hf⟩ := htr o ho hon s hm hid.symm
    exact ⟨hi, before, e', later, o, s₀, hrun, hfn, ho, hon, hf.session, hf.assignment, hf.place⟩
  · intro worker s hs
    have hp : s ∈ ((reached cfg (events ++ [e])).tasks worker).parting := by
      cases ht : (reached cfg (events ++ [e])).tasks worker with
      | asking s' next =>
        rw [ht] at hs
        obtain rfl := some.inj hs
        exact mem_cons_self
      | _ =>
        rw [ht] at hs
        cases hs
    exact (hpr worker s hp).2

def swept : List Event := assigned ++ works 1 (.sweep none) (.smooth 100 "slot-1") 1

theorem swept_session_over :
    let p := reached .usual (swept ++ [.resume 1 (.smooth 100 "slot-1")])
    ∃ s ∈ (p.tasks 1).asks, ∀ r ∈ p.db.sessions.rows, r.assignmentId = s.assignmentId → ¬r.state.live := by
  intro p
  have hr := releases_are_fenced .usual swept (.resume 1 (.smooth 100 "slot-1")) (by decide +kernel)
  obtain ⟨s, hs⟩ := isSome_iff_exists.mp (show (p.tasks 1).asks.isSome by decide +kernel)
  exact ⟨s, hs, hr.2 1 s hs⟩

theorem rebound_session_swept :
    let p := reached .usual (hostReady ["slot-1", "slot-2"] ++
      works 0 (.assign .sample) (.smooth 0 "slot-1") 5 ++
      works 1 (.sweep none) (.smooth 100 "slot-1") 2 ++
      [.resume 1 { Turn.smooth 100 "slot-1" with executor := false }, .host (.heartbeat "host" 100)] ++
      works 0 (.assign .sample) (.smooth 100 "slot-2") 5 ++
      works 1 (.sweep none) (.smooth 110 "slot-2") 2)
    (p.tasks 1).asks.map (fun s => (s.state, s.slotId, p.db.sessions.rows.map fun r =>
      (decide (r.assignmentId = s.assignmentId), r.state))) = some (.active, "slot-2", [(true, .active)]) := by
  decide +kernel

end LeafWeb.Executor
