import LeafWeb.Lib.Slots
import LeafWeb.Queue.FairQueue
import Mathlib.Algebra.Order.Group.Nat

namespace LeafWeb.Queue

open Lib Transition Rotation List Worker FairQueue

def Worker.holds (w : Worker) : ℕ :=
  match w.phase with
  | .waiting => 0
  | .holding => 1
  | .running _ => 1
  | .closing _ => 1
  | .returned => 0

def admissionOrder (log : List LogEntry) : List String :=
  (log.filter fun e => e.event = .dispatch).map fun e => e.job.jobId

def dispatches (log : List LogEntry) : List Job :=
  (log.filter fun e => e.event = .dispatch).map fun e => e.job

lemma dispatches_append (log : List LogEntry) (event : LogEvent) (job : Job) (inflight : ℕ) :
    dispatches (log ++ [⟨event, job, inflight⟩]) =
      dispatches log ++ (if event = .dispatch then [job] else []) := by
  rw [dispatches, filter_append, map_append]
  congr 1
  by_cases h : event = .dispatch <;> simp [h]

namespace FairQueue

/-- The tenant's FIFO is not one that a drain has emptied and left in the map. -/
def Fresh (q : FairQueue) : QueueEvent → Prop
  | .enqueue tenantId _ => ∀ tid ∈ validateTenantId tenantId, ¬ q.queue.Drained tid
  | _ => True

instance (q : FairQueue) : (e : QueueEvent) → Decidable (q.Fresh e)
  | .enqueue tenantId _ =>
    match h : validateTenantId tenantId with
    | some tid => decidable_of_iff (¬ q.queue.Drained tid) (by simp [Fresh, h])
    | none => isTrue (by simp [Fresh, h])
  | .runAll _ | .acquire _ | .pick _ | .finish _ _ | .release _ => isTrue trivial

/-- No job id is used twice: a second `enqueue` under it would replace the job's record. -/
def Unused (q : FairQueue) : QueueEvent → Prop
  | .enqueue tenantId jobId => validateTenantId tenantId = none ∨ q.jobs.get jobId = none
  | _ => True

instance (q : FairQueue) : (e : QueueEvent) → Decidable (q.Unused e)
  | .enqueue _ _ => inferInstanceAs (Decidable (_ ∨ _))
  | .runAll _ | .acquire _ | .pick _ | .finish _ _ | .release _ => isTrue trivial

/-- A drain has a thread, and a runner that raises nothing but an `Exception`. -/
def Runnable : QueueEvent → Prop
  | .runAll (some n) => 0 < n
  | .finish _ how => how ≠ .killed
  | _ => True

instance : (e : QueueEvent) → Decidable (Runnable e)
  | .runAll (some n) => inferInstanceAs (Decidable (0 < n))
  | .finish _ how => inferInstanceAs (Decidable (how ≠ .killed))
  | .runAll none | .enqueue _ _ | .acquire _ | .pick _ | .release _ => isTrue trivial

def accepted : QueueEvent → Multiset Job
  | .enqueue tenantId jobId => (validateTenantId tenantId).elim 0 fun tid => {⟨jobId, tid⟩}
  | _ => 0

variable {tenantId tid : String} {w : ℕ}

inductive Effect (q : FairQueue) : QueueEvent → Bool → FairQueue → Prop
  | blocked {e : QueueEvent} (h : accepted e = 0) : Effect q e false q
  | enqueued {tenantId tid : String} (jobId : String) (h : validateTenantId tenantId = some tid) :
      Effect q (.enqueue tenantId jobId) true (q.enqueue tid jobId)
  | started (workers : Option ℤ) : Effect q (.runAll workers) true (q.runAll workers)
  | acquired {w d n : ℕ} (hw : q.workers[w]? = some ⟨d, .waiting⟩) (hs : q.sem = n + 1) :
      Effect q (.acquire w) true (setPhase { q with sem := n } w ⟨d, .waiting⟩ .holding)
  | dispatched {w d : ℕ} {k : String} {job : Job} {queue : Rotation String String}
      (hw : q.workers[w]? = some ⟨d, .holding⟩) (hs : q.queue.Served k job.jobId queue)
      (hj : q.jobs.get job.jobId = some job) (hi : q.queue.items = job.jobId ::ₘ queue.items) :
      Effect q (.pick w) true (dispatch { q with queue := queue } w ⟨d, .holding⟩ job)
  | drained {w d : ℕ} (hw : q.workers[w]? = some ⟨d, .holding⟩) (hr : q.queue.ring = []) :
      Effect q (.pick w) true (q.releaseSem.setPhase w ⟨d, .holding⟩ .returned)
  | finished {w d : ℕ} {job : Job} (how : RunnerEnd)
      (hw : q.workers[w]? = some ⟨d, .running job⟩) :
      Effect q (.finish w how) true (q.finish w ⟨d, .running job⟩ job how)
  | released {w d : ℕ} {goesOn : Bool} (hw : q.workers[w]? = some ⟨d, .closing goesOn⟩) :
      Effect q (.release w) true (q.release w ⟨d, .closing goesOn⟩ goesOn)

structure Sound (q : FairQueue) : Prop where
  exact : q.queue.Exact
  named : ∀ jobId job, q.jobs.get jobId = some job → job.jobId = jobId
  known : ∀ jobId ∈ q.queue.items, ∃ job, q.jobs.get jobId = some job
  permits : q.sem + (q.workers.map holds).sum = q.ceiling

lemma sound_idle (ceiling : ℕ) : (idle ceiling).Sound where
  exact := exact_empty
  named jobId job h := by simp [idle] at h
  known jobId h := by simp [idle, items, empty, Table.total, Table.empty] at h
  permits := by simp [idle]

variable {q : FairQueue}

lemma pending_eq (q : FairQueue) : q.pending = q.queue.items.card := by
  have hg : ∀ rows : List (String × List String), (rows.map fun r => r.2.length).sum =
      (rows.map fun r => (r.2 : Multiset String)).sum.card := by
    intro rows
    induction rows with
    | nil => rfl
    | cons r rows ih => simp [ih]
  exact hg q.queue.fifos.rows

variable {d : ℕ}

lemma Sound.pick_effect (h : q.Sound) (hw : q.workers[w]? = some ⟨d, .holding⟩) :
    Effect q (.pick w) true (q.pick w ⟨d, .holding⟩) := by
  rcases h.exact.pick false with ⟨hr, hp⟩ | ⟨k, jobId, queue, hs, hp, -, hi⟩
  · rw [pick, nextJobId, hp]
    exact .drained hw hr
  obtain ⟨job, hj⟩ := h.known jobId (by rw [hi]; exact Multiset.mem_cons_self _ _)
  obtain rfl := h.named _ _ hj
  rw [pick, nextJobId, hp]
  simp only [hj]
  exact .dispatched hw hs hj hi

lemma step_enqueue_valid (jobId : String) (h : validateTenantId tenantId = some tid) :
    q.step (.enqueue tenantId jobId) = (true, q.enqueue tid jobId) := by
  rw [step, enqueueStep, h]
  rfl

lemma step_effect (h : q.Sound) (e : QueueEvent) : Effect q e (q.step e).1 (q.step e).2 := by
  cases e with
  | enqueue tenantId jobId =>
    cases hv : validateTenantId tenantId with
    | some tid =>
      rw [step_enqueue_valid jobId hv]
      exact .enqueued jobId hv
    | none =>
      rw [step, enqueueStep, hv]
      exact .blocked (by simp [accepted, hv])
  | runAll workers => exact .started workers
  | acquire w =>
    rw [step, acquireStep]
    split
    next d n hw hs =>
      exact .acquired hw hs
    · exact .blocked rfl
  | pick w =>
    rw [step, pickStep]
    split
    next d hw =>
      exact h.pick_effect hw
    · exact .blocked rfl
  | finish w how =>
    rw [step, finishStep]
    split
    next d job hw =>
      exact .finished how hw
    · exact .blocked rfl
  | release w =>
    rw [step, releaseStep]
    split
    next d goesOn hw =>
      exact .released hw
    · exact .blocked rfl

section

variable (q) (w : ℕ) (worker : Worker)

@[simp] lemma releaseSem_queue : q.releaseSem.queue = q.queue := by
  unfold releaseSem
  split_ifs <;> rfl

@[simp] lemma releaseSem_jobs : q.releaseSem.jobs = q.jobs := by
  unfold releaseSem
  split_ifs <;> rfl

@[simp] lemma releaseSem_log : q.releaseSem.log = q.log := by
  unfold releaseSem
  split_ifs <;> rfl

@[simp] lemma releaseSem_workers : q.releaseSem.workers = q.workers := by
  unfold releaseSem
  split_ifs <;> rfl

@[simp] lemma releaseSem_ceiling : q.releaseSem.ceiling = q.ceiling := by
  unfold releaseSem
  split_ifs <;> rfl

end

lemma holds_setPhase {worker : Worker} (hw : q.workers[w]? = some worker) (phase : WorkerPhase) :
    ((q.setPhase w worker phase).workers.map holds).sum + worker.holds =
      (q.workers.map holds).sum + holds ⟨worker.drain, phase⟩ :=
  sum_set_add _ hw

lemma Sound.sem_lt (h : q.Sound) {worker : Worker} (hw : q.workers[w]? = some worker)
    (hh : worker.holds = 1) : q.sem < q.ceiling := by
  have hle : worker.holds ≤ (q.workers.map holds).sum :=
    single_le_sum (by simp) _ (mem_map_of_mem (mem_of_getElem? hw))
  have := h.permits
  omega

variable {q' : FairQueue} {e : QueueEvent} {b : Bool}

lemma Sound.effect (h : q.Sound) (hf : q.Fresh e) (he : Effect q e b q') : q'.Sound := by
  cases he with
  | blocked => exact h
  | enqueued jobId hv =>
    rename_i tenantId tid
    refine ⟨(h.exact.enqueue_iff jobId).mpr (hf tid hv), ?_, ?_, h.permits⟩
    · intro jobId' job hj
      simp only [enqueue, Dict.get_set] at hj
      split_ifs at hj with hk
      · cases hj
        exact hk.symm
      · exact h.named jobId' job hj
    · intro jobId' hj
      simp only [enqueue, items_enqueue, Multiset.mem_cons] at hj
      simp only [enqueue, Dict.get_set]
      split_ifs with hk
      · exact ⟨_, rfl⟩
      · exact h.known jobId' (hj.resolve_left hk)
  | started workers =>
    refine ⟨h.exact, h.named, h.known, ?_⟩
    have hp := h.permits
    simp only [runAll]
    simpa [holds] using hp
  | acquired hw hs =>
    refine ⟨h.exact, h.named, h.known, ?_⟩
    have hset := holds_setPhase hw .holding
    have hp := h.permits
    simp only [setPhase, holds] at hset hp ⊢
    omega
  | dispatched hw hs hj hi =>
    refine ⟨hs.exact h.exact, h.named, ?_, ?_⟩
    · intro jobId hm
      exact h.known jobId (by rw [hi]; exact Multiset.mem_cons_of_mem hm)
    rename_i job queue
    have hset := holds_setPhase hw (.running job)
    have hp := h.permits
    simp only [dispatch, setPhase, holds] at hset hp ⊢
    omega
  | drained hw hr =>
    refine ⟨?_, ?_, ?_, ?_⟩
    · simpa [setPhase] using h.exact
    · simpa [setPhase] using h.named
    · simpa [setPhase] using h.known
    · have hlt := h.sem_lt hw rfl
      have hset := holds_setPhase hw .returned
      have hp := h.permits
      simp only [setPhase, holds, releaseSem, if_pos hlt] at hset hp ⊢
      omega
  | finished how hw =>
    refine ⟨h.exact, h.named, h.known, ?_⟩
    have hset := holds_setPhase hw (.closing (how != .killed))
    have hp := h.permits
    simp only [finish, setPhase, holds] at hset hp ⊢
    omega
  | released hw =>
    rename_i w d goesOn
    refine ⟨?_, ?_, ?_, ?_⟩
    · simpa [release, setPhase] using h.exact
    · simpa [release, setPhase] using h.named
    · simpa [release, setPhase] using h.known
    · have hlt := h.sem_lt hw rfl
      have hset := holds_setPhase hw (if goesOn then .waiting else .returned)
      have hp := h.permits
      have hn : holds ⟨d, if goesOn then .waiting else .returned⟩ = 0 := by
        cases goesOn <;> rfl
      rw [hn] at hset
      simp only [release, setPhase, holds, releaseSem, if_pos hlt] at hset hp ⊢
      omega

lemma Effect.ceiling (he : Effect q e b q') : q'.ceiling = q.ceiling := by
  cases he with
  | drained | released => exact releaseSem_ceiling q
  | _ => rfl

variable {ceiling : ℕ} {events : List QueueEvent}

lemma sound_run (hf : Along step Fresh (idle ceiling) events) : (after step (idle ceiling) events).Sound :=
  invariant_along (sound_idle ceiling) (fun _ e h hf => h.effect hf (step_effect h e)) events hf

lemma ceiling_run (hf : Along step Fresh (idle ceiling) events) :
    (after step (idle ceiling) events).ceiling = ceiling :=
  (invariant_along (I := fun q : FairQueue => q.Sound ∧ q.ceiling = ceiling)
    ⟨sound_idle ceiling, rfl⟩ (fun _ e h hf =>
      ⟨h.1.effect hf (step_effect h.1 e), ((step_effect h.1 e).ceiling).trans h.2⟩) events hf).2

lemma exact_iff_fresh (ceiling : ℕ) (events : List QueueEvent) :
    (∀ pre, pre <+: events → (after step (idle ceiling) pre).queue.Exact) ↔
      Along step Fresh (idle ceiling) events := by
  constructor
  · intro h
    apply along_of_prefixes
    intro pre e suf hes
    cases e with
    | enqueue tenantId jobId =>
      intro tid hv
      have hp := h pre ⟨_, hes.symm⟩
      have hn := h (pre ++ [.enqueue tenantId jobId]) ⟨suf, by simp [hes]⟩
      rw [after_concat] at hn
      rw [step_enqueue_valid jobId hv] at hn
      exact (hp.enqueue_iff jobId).mp hn
    | _ => trivial
  · rintro h pre ⟨suf, rfl⟩
    exact (sound_run ((along_append _ _ _).mp h).1).exact

def placed (q : FairQueue) : Multiset Job := dispatches q.log + q.queue.items.filterMap q.jobs.get

lemma placed_same {r : FairQueue} (hl : r.log = q.log) (hq : r.queue = q.queue) (hj : r.jobs = q.jobs) :
    r.placed = q.placed := by
  rw [placed, placed, hl, hq, hj]

lemma filterMap_get_set {jobs : Dict String Job} {jobId : String} {items : Multiset String}
    (h : jobId ∉ items) (job : Job) : items.filterMap (jobs.set jobId job).get = items.filterMap jobs.get := by
  induction items using Quot.inductionOn with
  | h l =>
    refine congrArg _ (filterMap_congr fun x hx => ?_)
    rw [Dict.get_set, if_neg]
    rintro rfl
    exact h hx

lemma Effect.conserves (h : q.Sound) (hu : q.Unused e) (he : Effect q e b q') :
    q'.placed = q.placed + accepted e := by
  cases he with
  | blocked h => rw [h, add_zero]
  | enqueued jobId hv =>
    rename_i tenantId tid
    have hn : q.jobs.get jobId = none := hu.resolve_left (by simp [hv])
    have hm : jobId ∉ q.queue.items := by
      intro hm
      obtain ⟨job, hj⟩ := h.known jobId hm
      cases hn.symm.trans hj
    simp only [placed, enqueue, items_enqueue, accepted, hv, Option.elim_some]
    rw [Multiset.filterMap_cons_some (b := ⟨jobId, tid⟩) _ _ _ (by simp [Dict.get_set]), filterMap_get_set hm,
      ← Multiset.singleton_add]
    ac_rfl
  | started | acquired => exact (add_zero q.placed).symm
  | dispatched hw hs hj hi =>
    rw [placed, placed, hi, Multiset.filterMap_cons_some _ _ _ hj, ← Multiset.singleton_add]
    simp only [dispatch, setPhase, dispatches_append, if_true, accepted, add_zero, ← Multiset.coe_add,
      Multiset.coe_singleton]
    ac_rfl
  | drained hw hr =>
    simpa [accepted] using placed_same (by simp [setPhase]) (by simp [setPhase]) (by simp [setPhase])
  | finished how hw => simp [placed, finish, setPhase, dispatches_append, accepted]
  | released hw =>
    simpa [accepted] using
      placed_same (by simp [release, setPhase]) (by simp [release, setPhase]) (by simp [release, setPhase])

lemma Effect.admitted_le (he : Effect q e b q') : (dispatches q.log : Multiset Job) ≤ dispatches q'.log := by
  cases he with
  | dispatched =>
    simp only [dispatch, setPhase, dispatches_append, ← Multiset.coe_add]
    exact le_self_add
  | finished how hw =>
    simp only [finish, setPhase, dispatches_append, ← Multiset.coe_add]
    exact le_self_add
  | drained hw hr => simp [setPhase]
  | released hw => simp [release, setPhase]
  | _ => exact le_rfl

def allAccepted (events : List QueueEvent) : Multiset Job := (events.map accepted).sum

lemma placed_run (hf : Along step Fresh (idle ceiling) events) (hu : Along step Unused (idle ceiling) events) :
    (after step (idle ceiling) events).placed = allAccepted events := by
  refine (history_along
    (I := fun h (q : FairQueue) => q.Sound ∧ q.placed = allAccepted (h.map Prod.fst))
    ⟨sound_idle ceiling, rfl⟩ ?_ events (hf.and hu)).2.trans ?_
  · rintro h q e ⟨hs, hp⟩ ⟨hfr, hun⟩
    have he := step_effect hs e
    refine ⟨hs.effect hfr he, ?_⟩
    rw [he.conserves hs hun, hp]
    simp [allAccepted]
  · rw [trace_events]

variable {post : List QueueEvent} {w : ℕ} {phase : WorkerPhase} {workers : Option ℤ}

lemma Effect.worker_drain (he : Effect q e b q') (hw : q.workers[w]? = some ⟨d, phase⟩) :
    ∃ phase', q'.workers[w]? = some ⟨d, phase'⟩ := by
  have hset : ∀ {w' d' : ℕ} {p : WorkerPhase} (p' : WorkerPhase),
      q.workers[w']? = some ⟨d', p⟩ →
      ∃ phase', (q.workers.set w' ⟨d', p'⟩)[w]? = some ⟨d, phase'⟩ := by
    intro w' d' p p' hw'
    rw [getElem?_set_of_some hw']
    by_cases hww : w = w'
    · subst hww
      cases hw.symm.trans hw'
      exact ⟨p', by simp⟩
    · exact ⟨phase, by simp [hww, hw]⟩
  cases he with
  | blocked | enqueued => exact ⟨phase, hw⟩
  | started workers =>
    obtain ⟨hlt, -⟩ := List.getElem?_eq_some_iff.mp hw
    exact ⟨phase, by rw [runAll, getElem?_append_left hlt, hw]⟩
  | acquired hw' hs => exact hset .holding hw'
  | dispatched hw' => exact hset (.running _) hw'
  | drained hw' hr => simpa [setPhase] using hset .returned hw'
  | finished how hw' => exact hset (.closing _) hw'
  | released hw' => simpa [release, setPhase] using hset _ hw'

def Closing (q : FairQueue) : Prop := ∀ worker ∈ q.workers, worker.phase ≠ .closing false

lemma Effect.closing (he : Effect q e b q') (hr : Runnable e) (h : q.Closing) : q'.Closing := by
  have hs : ∀ {w : ℕ} {worker : Worker}, worker.phase ≠ .closing false →
      ∀ v ∈ q.workers.set w worker, v.phase ≠ .closing false := by
    intro w worker hne v hv
    rcases mem_or_eq_of_mem_set hv with hv | rfl
    · exact h v hv
    · exact hne
  cases he with
  | blocked | enqueued => exact h
  | started workers =>
    intro v hv
    rcases mem_append.mp hv with hv | hv
    · exact h v hv
    · rw [eq_of_mem_replicate hv]
      simp
  | acquired | dispatched => exact hs (by simp)
  | drained hw hr' => simpa [Closing, setPhase] using hs (by simp)
  | finished how hw => exact hs (by simpa [Runnable] using hr)
  | released hw =>
    rename_i w d goesOn
    have hgo : goesOn = true := by
      by_contra hgo
      exact h _ (mem_of_getElem? hw) (by simpa using hgo)
    simpa [Closing, release, setPhase, hgo] using hs (by simp)

lemma Effect.returns (he : Effect q e b q') (h : q.Closing) (hw : q.workers[w]? = some ⟨d, phase⟩)
    (hne : phase ≠ .returned) (hw' : q'.workers[w]? = some ⟨d, .returned⟩) : q.queue.ring = [] := by
  have hset : ∀ {v d' : ℕ} {p p' : WorkerPhase}, q.workers[v]? = some ⟨d', p⟩ →
      p' ≠ .returned → (q.workers.set v ⟨d', p'⟩)[w]? ≠ some ⟨d, .returned⟩ := by
    intro v d' p p' hv hp hr
    rw [getElem?_set_of_some hv] at hr
    by_cases hwv : w = v
    · simp [hwv, hp] at hr
    · simp [hwv, hw, hne] at hr
  cases he with
  | blocked h' => simp [hw, hne] at hw'
  | enqueued jobId hv => simp [enqueue, hw, hne] at hw'
  | started workers =>
    obtain ⟨hlt, -⟩ := List.getElem?_eq_some_iff.mp hw
    simp [runAll, getElem?_append_left hlt, hw, hne] at hw'
  | acquired hv hs => exact absurd hw' (hset hv (by simp))
  | dispatched hv => exact absurd hw' (hset hv (by simp))
  | drained hv hr => exact hr
  | finished how hv => exact absurd hw' (hset hv (by simp))
  | released hv =>
    rename_i v d' goesOn
    have hgo : goesOn = true := by
      by_contra hgo
      exact h _ (mem_of_getElem? hv) (by simpa using hgo)
    simp only [release, setPhase, releaseSem_workers, hgo] at hw'
    exact absurd hw' (hset hv (by simp))

lemma closing_run (hf : Along step Fresh (idle ceiling) events)
    (hr : Along step (fun _ => Runnable) (idle ceiling) events) : (after step (idle ceiling) events).Closing := by
  refine (invariant_along (I := fun q : FairQueue => q.Sound ∧ q.Closing)
    ⟨sound_idle ceiling, by simp [Closing, idle]⟩ ?_ events (hf.and hr)).2
  rintro q e ⟨hs, hc⟩ ⟨hfr, hrun⟩
  have he := step_effect hs e
  exact ⟨hs.effect hfr he, he.closing hrun hc⟩

lemma admitted_mono (h : q.Sound) (hf : Along step Fresh q events) :
    (dispatches q.log : Multiset Job) ≤ dispatches (after step q events).log := by
  refine related_along (I := Sound)
    (R := fun q q' : FairQueue => (dispatches q.log : Multiset Job) ≤ dispatches q'.log)
    (fun _ => le_rfl) (fun _ _ _ => le_trans) (fun _ e hs hfr => hs.effect hfr (step_effect hs e))
    (fun _ e hs _ => (step_effect hs e).admitted_le) h events hf

lemma items_of_ring (h : q.Sound) (hr : q.queue.ring = []) : q.queue.items = 0 := by
  rw [items_eq_zero]
  intro k
  by_contra hw
  have hk := (h.exact.mem k).mpr hw
  rw [hr] at hk
  cases hk

lemma runAll_worker (hr : Runnable (.runAll workers)) (hi : q.queue.items ≠ 0) :
    (q.runAll workers).workers[q.workers.length]? = some ⟨q.drains, .waiting⟩ := by
  have hp : q.pending ≠ 0 := by
    rw [pending_eq]
    simpa using hi
  have hpos : 0 < q.workerCount workers := by
    cases workers with
    | none =>
      simp only [workerCount]
      omega
    | some n =>
      simp only [Runnable] at hr
      simp only [workerCount]
      omega
  rw [runAll, if_neg hp, getElem?_append_right le_rfl, Nat.sub_self, getElem?_replicate, if_pos hpos]

lemma worker_run (h : q.Sound) (hf : Along step Fresh q events) {w : ℕ} (hw : q.workers[w]? = some ⟨d, phase⟩) :
    ∃ phase', (after step q events).workers[w]? = some ⟨d, phase'⟩ := by
  induction events generalizing q phase with
  | nil => exact ⟨phase, hw⟩
  | cons e events ih =>
    have he := step_effect h e
    obtain ⟨phase', hw'⟩ := he.worker_drain hw
    exact ih (h.effect hf.1 he) hf.2 hw'

lemma emptied (h : q.Sound) (hcl : q.Closing) (hf : Along step Fresh q events)
    (hr : Along step (fun _ => Runnable) q events) (hw : q.workers[w]? = some ⟨d, phase⟩) (hne : phase ≠ .returned)
    (hl : (after step q events).workers[w]? = some ⟨d, .returned⟩) :
    ∃ mid suf, events = mid ++ suf ∧ (after step q mid).queue.items = 0 := by
  induction events generalizing q phase with
  | nil =>
    rw [after_nil, hw] at hl
    cases hl
    exact absurd rfl hne
  | cons e events ih =>
    have he := step_effect h e
    obtain ⟨phase', hw'⟩ := he.worker_drain hw
    by_cases hret : phase' = .returned
    · subst hret
      exact ⟨[], e :: events, rfl, items_of_ring h (he.returns hcl hw hne hw')⟩
    · obtain ⟨mid, suf, rfl, hi⟩ := ih (h.effect hf.1 he) (he.closing hr.1 hcl) hf.2 hr.2 hw' hret hl
      exact ⟨e :: mid, suf, rfl, hi⟩

lemma drain_empties (h : q.Sound) (hcl : q.Closing) (hf : Along step Fresh q (.runAll workers :: post))
    (hr : Along step (fun _ => Runnable) q (.runAll workers :: post))
    (hd : ∀ worker ∈ (after step q (.runAll workers :: post)).workers, worker.drain = q.drains →
      worker.phase = .returned) :
    ∃ mid suf, .runAll workers :: post = mid ++ suf ∧ (after step q mid).queue.items = 0 := by
  by_cases hi : q.queue.items = 0
  · exact ⟨[], _, rfl, hi⟩
  have he : Effect q (.runAll workers) true (q.runAll workers) := .started workers
  have hs : (q.runAll workers).Sound := h.effect hf.1 he
  have hw := runAll_worker hr.1 hi
  obtain ⟨phase, hl⟩ := worker_run hs hf.2 hw
  have hret : phase = .returned := hd _ (mem_of_getElem? hl) rfl
  rw [hret] at hl
  obtain ⟨mid, suf, rfl, hm⟩ := emptied hs (he.closing hr.1 hcl) hf.2 hr.2 hw (by simp) hl
  exact ⟨.runAll workers :: mid, suf, rfl, hm⟩

lemma drain_dispatches {pre : List QueueEvent}
    (hf : Along step Fresh (idle ceiling) (pre ++ .runAll workers :: post))
    (hu : Along step Unused (idle ceiling) (pre ++ .runAll workers :: post))
    (hr : Along step (fun _ => Runnable) (idle ceiling) (pre ++ .runAll workers :: post))
    (hd : ∀ worker ∈ (after step (idle ceiling) (pre ++ .runAll workers :: post)).workers,
      worker.drain = (after step (idle ceiling) pre).drains → worker.phase = .returned) :
    allAccepted pre ≤ dispatches (after step (idle ceiling) (pre ++ .runAll workers :: post)).log := by
  obtain ⟨hfr, hfp⟩ := (along_append _ _ _).mp hf
  obtain ⟨hrpre, hrp⟩ := (along_append _ _ _).mp hr
  rw [after_append] at hd
  obtain ⟨mid, suf, hs, hi⟩ := drain_empties (sound_run hfr) (closing_run hfr hrpre) hfp hrp hd
  rw [hs, ← append_assoc] at hf hu ⊢
  rw [← after_append] at hi
  obtain ⟨hfm, hfs⟩ := (along_append _ _ _).mp hf
  rw [after_append]
  calc allAccepted pre
      ≤ allAccepted (pre ++ mid) := by
        rw [allAccepted, allAccepted, map_append, sum_append]
        exact le_self_add
    _ = dispatches (after step (idle ceiling) (pre ++ mid)).log := by
        rw [← placed_run hfm ((along_append _ _ _).mp hu).1, placed, hi, Multiset.filterMap_zero, add_zero]
    _ ≤ _ := admitted_mono (sound_run hfm) hfs

end FairQueue

def Worker.weight (worker : Worker) : ℕ :=
  match worker.phase with
  | .waiting => 2
  | .holding => 1
  | .running _ => 4
  | .closing _ => 3
  | .returned => 0

def QueueEvent.ofWorker : QueueEvent → Bool
  | .enqueue _ _ => false
  | .runAll _ => false
  | _ => true

namespace FairQueue

variable {q q' : FairQueue}

def work (q : FairQueue) : ℕ := 4 * q.queue.items.card + (q.workers.map weight).sum

variable {worker : Worker}

lemma weight_setPhase {w : ℕ} (hw : q.workers[w]? = some worker) (phase : WorkerPhase) :
    ((q.workers.set w { worker with phase := phase }).map weight).sum + worker.weight =
      (q.workers.map weight).sum + weight ⟨worker.drain, phase⟩ :=
  sum_set_add _ hw

lemma Effect.work_lt {e : QueueEvent} (he : Effect q e true q') (hw : e.ofWorker = true) : q'.work < q.work := by
  cases he with
  | enqueued | started => simp [QueueEvent.ofWorker] at hw
  | acquired hv hs =>
    have := weight_setPhase hv .holding
    simp only [work, setPhase, weight] at this ⊢
    omega
  | dispatched hv hs hj hi =>
    rename_i w d k job queue
    have := weight_setPhase hv (.running job)
    simp only [work, dispatch, setPhase, weight, hi, Multiset.card_cons] at this ⊢
    omega
  | drained hv hr =>
    have := weight_setPhase hv .returned
    simp only [work, setPhase, weight, releaseSem_queue, releaseSem_workers] at this ⊢
    omega
  | finished how hv =>
    have := weight_setPhase hv (.closing (how != .killed))
    simp only [work, finish, setPhase, weight] at this ⊢
    omega
  | released hv =>
    rename_i w d goesOn
    have := weight_setPhase hv (if goesOn then .waiting else .returned)
    have hn : weight ⟨d, if goesOn then .waiting else .returned⟩ ≤ 2 := by
      cases goesOn <;> simp [weight]
    simp only [work, release, setPhase, releaseSem_queue, releaseSem_workers] at this ⊢
    have hold : weight ⟨d, .closing goesOn⟩ = 3 := rfl
    omega

lemma progress_of_holds {w : ℕ} (hw : q.workers[w]? = some worker) (hh : worker.holds = 1) :
    ∃ e : QueueEvent, e.ofWorker = true ∧ (q.step e).1 = true := by
  obtain ⟨d, phase⟩ := worker
  cases phase with
  | waiting | returned => simp [holds] at hh
  | holding => exact ⟨.pick w, rfl, by simp [step, pickStep, hw]⟩
  | running job => exact ⟨.finish w .result, rfl, by simp [step, finishStep, hw]⟩
  | closing goesOn => exact ⟨.release w, rfl, by simp [step, releaseStep, hw]⟩

lemma Sound.progress (h : q.Sound) (hc : 0 < q.ceiling) (hw : worker ∈ q.workers)
    (hne : worker.phase ≠ .returned) : ∃ e : QueueEvent, e.ofWorker = true ∧ (q.step e).1 = true := by
  obtain ⟨w, hw⟩ := getElem?_of_mem hw
  obtain ⟨d, phase⟩ := worker
  by_cases hwt : phase = .waiting
  · subst hwt
    cases hs : q.sem with
    | succ n => exact ⟨.acquire w, rfl, by simp [step, acquireStep, hw, hs]⟩
    | zero =>
      have hsum : (q.workers.map holds).sum ≠ 0 := by
        have := h.permits
        omega
      obtain ⟨v, hv, hh⟩ : ∃ v ∈ q.workers, v.holds ≠ 0 := by
        by_contra hno
        exact hsum (sum_eq_zero (by simpa using hno))
      obtain ⟨i, hi⟩ := getElem?_of_mem hv
      refine progress_of_holds hi ?_
      obtain ⟨d', phase'⟩ := v
      cases phase' <;> simp [holds] at hh ⊢
  · refine progress_of_holds hw ?_
    cases phase <;> simp [holds] at hwt hne ⊢

end FairQueue

theorem fair_queue_strands_nothing (ceiling : ℕ) (hc : 0 < ceiling) (events : List QueueEvent) :
    let run := after step (.idle ceiling)
    ((∀ pre, pre <+: events → (run pre).queue.ring.Nodup ∧
        ∀ tid, tid ∈ (run pre).queue.ring ↔ (run pre).queue.waiting tid ≠ []) ↔
      Along step Fresh (.idle ceiling) events) ∧
    (Along step (fun q e => q.Fresh e ∧ q.Unused e ∧ Runnable e) (.idle ceiling) events →
      (∀ pre workers post, events = pre ++ .runAll workers :: post →
        (∀ worker ∈ (run events).workers, worker.drain = (run pre).drains → worker.phase = .returned) →
        allAccepted pre ≤ dispatches (run events).log) ∧
      (dispatches (run events).log : Multiset Job) ≤ allAccepted events ∧
      ((∃ worker ∈ (run events).workers, worker.phase ≠ .returned) →
        ∃ e : QueueEvent, e.ofWorker = true ∧ ((run events).step e).1 = true) ∧
      ∀ e : QueueEvent, e.ofWorker = true → ((run events).step e).1 = true →
        ((run events).step e).2.work < (run events).work) := by
  refine ⟨?_, ?_⟩
  · rw [← exact_iff_fresh]
    exact forall₂_congr fun pre _ => ⟨fun h => ⟨h.1, h.2⟩, fun h => ⟨h.nodup, h.mem⟩⟩
  intro hb
  have hf := hb.mono fun _ _ h => h.1
  have hu := hb.mono fun _ _ h => h.2.1
  have hr := hb.mono fun _ _ h => h.2.2
  have hs := sound_run hf
  refine ⟨?_, ?_, ?_, ?_⟩
  · rintro pre workers post rfl hd
    exact drain_dispatches hf hu hr hd
  · rw [← placed_run hf hu]
    exact le_self_add
  · rintro ⟨worker, hw, hne⟩
    exact hs.progress (by rwa [ceiling_run hf]) hw hne
  · intro e hw ht
    have he := step_effect hs e
    rw [ht] at he
    exact he.work_lt hw

def twoWorkers : List QueueEvent :=
  [.acquire 0, .pick 0, .finish 0 .result, .release 0, .acquire 1, .pick 1, .finish 1 .exception,
    .release 1, .acquire 0, .pick 0, .acquire 1, .pick 1]

theorem fair_queue_strands_nothing_two_tenants :
    allAccepted [.enqueue "a" "j1", .enqueue "b" "j2"] ≤
      dispatches (after step (.idle 1)
        ([.enqueue "a" "j1", .enqueue "b" "j2"] ++ .runAll none :: twoWorkers)).log := by
  obtain ⟨-, h⟩ := fair_queue_strands_nothing 1 (by decide)
    ([.enqueue "a" "j1", .enqueue "b" "j2"] ++ .runAll none :: twoWorkers)
  obtain ⟨hd, -⟩ := h (by decide +kernel)
  exact hd [.enqueue "a" "j1", .enqueue "b" "j2"] none twoWorkers rfl (by decide +kernel)

theorem fair_queue_strands_second_batch :
    let q := after step (.idle 1)
      [.enqueue "a" "j1", .runAll none, .acquire 0, .pick 0, .finish 0 .result, .release 0,
        .acquire 0, .pick 0, .enqueue "a" "j2", .runAll none, .acquire 1, .pick 1]
    (∀ worker ∈ q.workers, worker.phase = .returned) ∧ q.workers.length = 2 ∧
      admissionOrder q.log = ["j1"] ∧ q.queue.waiting "a" = ["j2"] ∧ q.queue.ring = [] := by
  decide +kernel

def Worker.runs (w : Worker) : ℕ :=
  match w.phase with
  | .running _ => 1
  | _ => 0

def inFlight (log : List LogEntry) : ℤ × ℤ :=
  log.foldl (fun (cur, peak) e => match e.event with
    | .dispatch => (cur + 1, max peak (cur + 1))
    | .complete => (cur - 1, peak)) (0, 0)

def peakInFlight (log : List LogEntry) : ℤ := (inFlight log).2

lemma inFlight_append (log : List LogEntry) (e : LogEntry) : inFlight (log ++ [e]) = match e.event with
    | .dispatch => ((inFlight log).1 + 1, max (inFlight log).2 ((inFlight log).1 + 1))
    | .complete => ((inFlight log).1 - 1, (inFlight log).2) := by
  rw [inFlight, foldl_append]
  rfl

namespace FairQueue

structure Bounded (ceiling : ℕ) (q : FairQueue) : Prop where
  fixed : q.ceiling = ceiling
  permits : q.sem + (q.workers.map holds).sum ≤ ceiling
  inflight : q.inflight = (q.workers.map runs).sum
  logged : inFlight q.log = (↑q.inflight, ↑q.maxInflight)
  peak : q.inflight ≤ q.maxInflight ∧ q.maxInflight ≤ ceiling

variable {ceiling w : ℕ} {q : FairQueue} {worker : Worker}

lemma runs_le_holds (workers : List Worker) : (workers.map runs).sum ≤ (workers.map holds).sum := by
  refine sum_le_sum fun worker _ => ?_
  rw [runs, holds]
  cases worker.phase <;> simp

lemma Bounded.setPhase (h : q.Bounded ceiling) (hw : q.workers[w]? = some worker) {phase : WorkerPhase}
    {sem inflight maxInflight : ℕ} {log : List LogEntry} (queue : Rotation String String)
    (hs : sem + holds ⟨worker.drain, phase⟩ ≤ q.sem + worker.holds)
    (hr : inflight + worker.runs = q.inflight + runs ⟨worker.drain, phase⟩)
    (hl : inFlight log = (↑inflight, ↑maxInflight)) (hm : maxInflight = max q.maxInflight inflight) :
    (FairQueue.setPhase { q with sem, inflight, maxInflight, log, queue } w worker phase).Bounded ceiling := by
  have hh := sum_set_add (b := { worker with phase := phase }) holds hw
  have hn := sum_set_add (b := { worker with phase := phase }) runs hw
  have hle := runs_le_holds (q.workers.set w { worker with phase := phase })
  obtain ⟨hf, hp, hi, -, hk, hk'⟩ := h
  refine ⟨hf, ?_, ?_, hl, ?_⟩
  all_goals dsimp only [FairQueue.setPhase]
  all_goals omega

lemma releaseSem_eq (q : FairQueue) : ∃ sem ≤ q.sem + 1, q.releaseSem = { q with sem } := by
  unfold releaseSem
  split_ifs
  · exact ⟨_, le_rfl, rfl⟩
  · exact ⟨_, Nat.le_succ _, rfl⟩

lemma bounded_step (h : q.Bounded ceiling) (e : QueueEvent) : (q.step e).2.Bounded ceiling := by
  have hq := h.logged
  have hm : q.maxInflight = max q.maxInflight q.inflight := (max_eq_left h.peak.1).symm
  cases e with
  | enqueue tenantId jobId =>
    rw [step, enqueueStep]
    cases validateTenantId tenantId with
    | none => exact h
    | some tid => exact ⟨h.fixed, h.permits, h.inflight, hq, h.peak⟩
  | runAll workers =>
    refine ⟨h.fixed, ?_, ?_, hq, h.peak⟩
    · simpa [step, runAll, holds] using h.permits
    · simpa [step, runAll, runs] using h.inflight
  | acquire w =>
    rw [step, acquireStep]
    split
    · next d n hw hs => exact h.setPhase hw q.queue (by simp [holds]; omega) (by simp [runs]) hq hm
    · exact h
  | pick w =>
    rw [step, pickStep]
    split
    · next d hw =>
      dsimp only
      rw [pick]
      split
      · next queue _ =>
        obtain ⟨sem, hs, he⟩ := releaseSem_eq { q with queue }
        rw [he]
        exact h.setPhase hw queue (by simpa [holds] using hs) rfl hq hm
      · next jobId queue _ =>
        split
        · next job _ =>
          refine h.setPhase hw queue le_rfl rfl ?_ rfl
          rw [inFlight_append, hq]
          simp only [Prod.mk.injEq]
          omega
        · exact h.setPhase hw queue (by simp [holds]) rfl hq hm
    · exact h
  | finish w how =>
    rw [step, finishStep]
    split
    · next d job hw =>
      have hr := single_le_sum (by simp) _ (mem_map_of_mem (f := runs) (mem_of_getElem? hw))
      rw [← h.inflight] at hr
      change 1 ≤ q.inflight at hr
      have hp := h.peak.1
      refine h.setPhase hw q.queue le_rfl (by simp only [runs]; omega) ?_ (by omega)
      rw [inFlight_append, hq]
      simp only [Prod.mk.injEq, and_true]
      omega
    · exact h
  | release w =>
    rw [step, releaseStep]
    split
    · next d goesOn hw =>
      obtain ⟨sem, hs, he⟩ := releaseSem_eq q
      dsimp only
      rw [release, he]
      refine h.setPhase hw q.queue ?_ ?_ hq hm
      · cases goesOn <;> simpa [holds] using hs
      · cases goesOn <;> rfl
    · exact h

end FairQueue

theorem fair_queue_within_ceiling (ceiling : ℕ) (events : List QueueEvent) :
    let q := after step (.idle ceiling) events
    q.inflight = (q.workers.map runs).sum ∧ q.inflight ≤ ceiling ∧
      peakInFlight q.log = q.maxInflight ∧ q.maxInflight ≤ ceiling := by
  have h0 : (idle ceiling).Bounded ceiling := ⟨rfl, by simp [idle], rfl, rfl, Nat.zero_le _, Nat.zero_le _⟩
  have h := invariant h0 (fun _ e h => bounded_step h e) events
  refine ⟨h.inflight, h.peak.1.trans h.peak.2, ?_, h.peak.2⟩
  rw [peakInFlight, h.logged]

end LeafWeb.Queue
