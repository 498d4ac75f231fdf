import LeafWeb.Jobs.Effects

/-! The reaper lists its rows, reads each job again and reports its failure in three sections of the lock. -/

namespace LeafWeb.Jobs

open Lib Transition Procedure Function List Bool

variable (cfg : Config)

/-- The `get_job` that finds the attempts of a job exhausted finds no unexpired lease on it. -/
def readsUnowned (s : State) : Event → Bool
  | .resume process now =>
    match s.tasks process with
    | .sweeping (row :: _) => row.closed || (s.jobs.find row.jobId).all fun r =>
        r.status.isTerminal || r.attempt < maxAttempts cfg || r.recovery = .nativeRemote ||
          r.leaseExpiresAt.all (· < now)
    | _ => true
  | _ => true

variable {cfg}

def Spent (cfg : Config) (readings : List ℤ) (r : JobRow) : Prop :=
  r.status.isTerminal = false → maxAttempts cfg ≤ r.attempt ∧
    ∀ expires, r.leaseExpiresAt = some expires → ∃ t ∈ readings, expires < t

variable {now : ℤ} {r r' : JobRow} {readings readings' : List ℤ} {workerId : String}

lemma spent_mono (h : Spent cfg readings r) (hsub : ∀ t ∈ readings, t ∈ readings') : Spent cfg readings' r := by
  intro hs
  refine ⟨(h hs).1, fun expires he => ?_⟩
  obtain ⟨t, ht, hlt⟩ := (h hs).2 expires he
  exact ⟨t, hsub t ht, hlt⟩

lemma claimable_inFlight (h : claimable cfg now r) :
    r.status.isTerminal = false ∧ r.progress ≠ closedProgress ∧ r.attempt < maxAttempts cfg := by
  simp only [claimable, and_eq_true, or_eq_true, decide_eq_true_eq] at h
  obtain ⟨⟨hs, hp⟩, ha⟩ := h
  refine ⟨?_, by simpa using hp, ha⟩
  obtain hs | ⟨hs, -⟩ := hs <;> rw [hs] <;> rfl

lemma heldBy_lease (h : heldBy workerId now r) :
    r.leaseOwner = some workerId ∧ ∃ expires, r.leaseExpiresAt = some expires ∧ now ≤ expires := by
  rw [heldBy, and_eq_true, decide_eq_true_eq] at h
  refine ⟨h.1, ?_⟩
  cases he : r.leaseExpiresAt with
  | none => rw [he] at h; cases h.2
  | some expires =>
    rw [he] at h
    exact ⟨expires, rfl, by simpa using h.2⟩

lemma deliver_status (now : ℤ) (r : JobRow) : (r.deliver now).status = r.status := by
  rw [JobRow.deliver]
  split_ifs <;> rfl

variable {s : State} {e : Event}

lemma spent_change (hr : Change cfg s e r r')
    (hcl : ∀ t ∈ readings, t ≤ e.now) (h : Spent cfg readings r) : Spent cfg readings r' := by
  cases hr with
  | claimed hc =>
    obtain ⟨hs, _, ha⟩ := claimable_inFlight hc
    exact absurd (h hs).1 (not_le.mpr ha)
  | beat hs hh =>
    obtain ⟨_, expires, he, hle⟩ := heldBy_lease hh
    obtain ⟨t, ht, hlt⟩ := (h (by rw [hs]; rfl)).2 expires he
    exact absurd (hlt.trans_le (hcl t ht)) (not_lt.mpr hle)
  | @finished _ _ o _ _ now ho =>
    intro hs
    have ht : (r.finish cfg o now).status.isTerminal = true := ho
    cases ht.symm.trans hs
  | touched ht => exact h
  | delivered ht =>
    intro hs
    rw [deliver_status, ht] at hs
    cases hs
  | released hs => exact fun _ => ⟨(h (by rw [hs]; rfl)).1, nofun⟩
  | closed hs => exact fun _ => ⟨(h hs).1, nofun⟩
  | overwritten _ ht =>
    intro hs
    have hs' : r.status.isTerminal = false := hs
    cases ht.symm.trans hs'

variable {process p : ℕ} {jobId : String} {attempt : ℤ} {rows : List SweptRow} {jobs : JobTable} {task : Task}

lemma call_exhausted {allowClosed : Bool} {cb : Callback} {id : String} {next : Task}
    (hn : next ≠ .exhausted jobId attempt rows) :
    (call cfg jobs id cb allowClosed now next).task ≠ .exhausted jobId attempt rows := by
  rw [call]
  split
  · exact hn
  · simp

lemma advance_exhausted (h : (advance cfg jobs now task).task = .exhausted jobId attempt rows) :
    ∃ row rest, task = .sweeping (row :: rest) ∧ row.closed = false ∧
      redispatch cfg (jobs.find row.jobId) rest = .exhausted jobId attempt rows := by
  cases task with
  | idle | releasing | flagging => cases h
  | sweeping list =>
    cases list with
    | nil => cases h
    | cons row rest =>
      rw [advance] at h
      split_ifs at h with hc
      · exact absurd h (call_exhausted (by simp))
      · exact ⟨row, rest, rfl, by simpa using hc, h⟩
  | exhausted | unrecoverable | finishing => exact absurd h (call_exhausted (by simp))
  | closing stamp list =>
    cases list with
    | nil | cons => cases h

lemma begin_exhausted (h : (s.begin p task).tasks process = .exhausted jobId attempt rows)
    (hne : task ≠ .exhausted jobId attempt rows) : s.tasks process = .exhausted jobId attempt rows := by
  simp only [State.begin] at h
  by_cases hp : process = p
  · subst hp
    rw [update_self] at h
    exact absurd h hne
  · rwa [update_of_ne hp] at h

lemma retryOrFinish_ne_exhausted {error : JobError} {provenance : Provenance} {record : Option JobRow} :
    retryOrFinish cfg record workerId error provenance now ≠ .exhausted jobId attempt rows := by
  cases record with
  | none => simp [retryOrFinish]
  | some r =>
    rw [retryOrFinish]
    split_ifs <;> simp

lemma step_exhausted (h : (step cfg s e).2.tasks process = .exhausted jobId attempt rows) :
    s.tasks process = .exhausted jobId attempt rows ∨
    ∃ now row rest r, e = .resume process now ∧ s.tasks process = .sweeping (row :: rest) ∧
      row.closed = false ∧ s.jobs.find row.jobId = some r ∧ r.jobId = jobId ∧
      r.status.isTerminal = false ∧ maxAttempts cfg ≤ r.attempt ∧ r.recovery ≠ .nativeRemote := by
  cases e with
  | submit | claim | heartbeat | callback | deliver => exact .inl h
  | sweep | closeTenant =>
    exact .inl (begin_exhausted h (by simp))
  | retryOrFinish => exact .inl (begin_exhausted h retryOrFinish_ne_exhausted)
  | markClosed p id now =>
    refine .inl (begin_exhausted h ?_)
    rw [flagTask]
    split_ifs <;> simp
  | resume p now =>
    rw [step] at h
    dsimp only at h
    by_cases hp : process = p
    · subst hp
      rw [update_self] at h
      obtain ⟨row, rest, ht, hc, hr⟩ := advance_exhausted h
      cases hf : s.jobs.find row.jobId with
      | none =>
        rw [hf] at hr
        cases hr
      | some r =>
        rw [hf, redispatch] at hr
        split_ifs at hr with hu htr hmax hm
        cases hr
        exact .inr ⟨now, row, _, r, rfl, ht, hc, hf, rfl, by simpa using htr, hmax⟩
    · rw [update_of_ne hp] at h
      exact .inl h

def ReportsSpent (cfg : Config) (readings : List ℤ) (s : State) : Prop :=
  ∀ process jobId attempt rows, s.tasks process = .exhausted jobId attempt rows →
    ∃ r, s.jobs.find jobId = some r ∧ Spent cfg readings r

lemma reportsSpent_step (hi : ReportsSpent cfg readings s)
    (hcl : ∀ t ∈ readings, t ≤ e.now) (hrd : readsUnowned cfg s e) :
    ReportsSpent cfg (readings ++ [e.now]) (step cfg s e).2 := by
  intro process jobId attempt rows ht
  have hsub : ∀ t ∈ readings, t ∈ readings ++ [e.now] := fun t => mem_append_left _
  obtain hold | ⟨now, row, rest, r, rfl, hsw, hc, hf, rfl, hs, ha, hn⟩ := step_exhausted ht
  · obtain ⟨r, hf, hsp⟩ := hi process jobId attempt rows hold
    obtain ⟨r', hf', rfl | hr⟩ := (step_jobs cfg s e).row hf
    · exact ⟨r', hf', spent_mono hsp hsub⟩
    · exact ⟨r', hf', spent_mono (spent_change hr hcl hsp) hsub⟩
  · have hj : (step cfg s (.resume process now)).2.jobs = s.jobs := by
      rw [step, hsw, advance, if_neg (by simp [hc])]
    refine ⟨r, by rw [hj, Table.find_key hf]; exact hf, fun _ => ⟨ha, ?_⟩⟩
    intro expires he
    simp only [readsUnowned, hsw, hc, hf, Bool.false_or, Option.all_some, hs, he,
      Bool.or_eq_true, decide_eq_true_eq] at hrd
    obtain (hlt | hrec) | hlt := hrd
    · exact absurd ha (not_le.mpr hlt)
    · exact absurd hrec hn
    · exact ⟨now, by simp [Event.now], hlt⟩

lemma reportsSpent_run (es : List Event) (hc : (es.map Event.now).Pairwise (· ≤ ·))
    (hr : Along (step cfg) (fun s e => readsUnowned cfg s e) .empty es) :
    ReportsSpent cfg (es.map Event.now) (after (step cfg) .empty es) := by
  induction es using reverseRecOn with
  | nil => exact nofun
  | append_singleton es e ih =>
    rw [map_append, pairwise_append] at hc
    rw [along_append] at hr
    rw [after_concat, map_append]
    refine reportsSpent_step (ih hc.1 hr.1) ?_ hr.2.1
    exact fun t ht => hc.2.2 t ht e.now (by simp)

theorem exhausted_job_unowned (cfg : Config) (es : List Event) (hclock : (es.map Event.now).Pairwise (· ≤ ·))
    (hread : Along (step cfg) (fun s e => readsUnowned cfg s e) .empty es)
    (pre suf : List Event) (process : ℕ) (now : ℤ) (hes : es = pre ++ .resume process now :: suf)
    (jobId : String) (attempt : ℤ) (rows : List SweptRow) (r : JobRow)
    (htask : (after (step cfg) .empty pre).tasks process = .exhausted jobId attempt rows)
    (hfind : (after (step cfg) .empty pre).jobs.find jobId = some r)
    (happlied : (step cfg (after (step cfg) .empty pre) (.resume process now)).1 = .answered .applied) :
    ∀ expires, r.leaseExpiresAt = some expires → expires < now := by
  subst hes
  rw [map_append, pairwise_append] at hclock
  rw [along_append] at hread
  obtain ⟨r', hfind', hsp⟩ := reportsSpent_run pre hclock.1 hread.1 process jobId attempt rows htask
  cases hfind.symm.trans hfind'
  have hs : r.status.isTerminal = false := by
    rw [step, htask, advance, call] at happlied
    split at happlied
    next answer jobs' hc =>
      cases happlied
      obtain ⟨_, _, hc⟩ := except_bind_ok hc
      simp only [hfind] at hc
      obtain ⟨_, _, hc⟩ := except_bind_ok hc
      split_ifs at hc with ha htr hfp
      · simp only [applicable, and_eq_true, not_eq_true'] at ha
        exact ha.1.1
      all_goals cases hc
    · cases happlied
  intro expires he
  obtain ⟨t, ht, hlt⟩ := (hsp hs).2 expires he
  exact hlt.trans_le (hclock.2.2 t ht now (by simp [Event.now]))

def defaults : Config where
  jobMaxAttempts := 3
  jobLease := 60000000
  heartbeatStale := 60000000
  terminalFingerprint := fun o =>
    if o.status = .complete then "41da9d9decf55c378a68fc5c773d70b8a1c2e4a4e90e31f82d170ced93a07109"
    else "5e0e0251250202bd2fd74315ba7992d6d2ab3f14cf32f4af6e2cbb3135d19917"
  contextCheck := fun _ _ => .ok ()
  receiptCheck := fun _ _ => .ok ()

def sampleJob : Submission := ⟨"job", "tenant", false, false, .redispatched⟩

def abandonedEvents : List Event :=
  [.submit sampleJob 0, .claim "job" "worker-1" 1000000, .claim "job" "worker-2" 62000000,
   .claim "job" "worker-3" 123000000, .sweep 0 200000000 200000000, .resume 0 201000000]

theorem exhausted_job_unowned_abandoned :
    let s := after (step defaults) .empty abandonedEvents
    (step defaults s (.resume 0 202000000)).1 = .answered .applied ∧
      (s.jobs.find "job").bind (·.leaseExpiresAt) = some 183000000 ∧ (183000000 : ℤ) < 202000000 := by
  intro s
  have ha : (step defaults s (.resume 0 202000000)).1 = .answered .applied := by decide +kernel
  have hl : (s.jobs.find "job").bind (·.leaseExpiresAt) = some 183000000 := by decide +kernel
  obtain ⟨r, hf, he⟩ := Option.bind_eq_some_iff.mp hl
  exact ⟨ha, hl, exhausted_job_unowned defaults (abandonedEvents ++ [.resume 0 202000000])
    (by decide +kernel) (by decide +kernel) abandonedEvents [] 0 202000000 rfl "job" 3 [] r
    (by decide +kernel) hf ha 183000000 he⟩

def reclaimedEvents : List Event :=
  [.submit sampleJob 0, .claim "job" "worker-1" 1000000, .claim "job" "worker-2" 62000000,
   .sweep 0 200000000 200000000, .claim "job" "worker-3" 201000000, .resume 0 202000000]

theorem reaper_fails_owned_job :
    (after (step defaults) .empty reclaimedEvents).tasks 0 = .exhausted "job" 3 [] ∧
    ((after (step defaults) .empty reclaimedEvents).jobs.find "job").map
      (fun r => (r.status, r.progress, r.leaseOwner, r.leaseExpiresAt)) =
      some (.running, "running", some "worker-3", some 261000000) ∧
    (step defaults (after (step defaults) .empty reclaimedEvents) (.resume 0 203000000)).1 = .answered .applied ∧
    ((step defaults (after (step defaults) .empty reclaimedEvents)
      (.resume 0 203000000)).2.jobs.find "job").map (fun r => (r.status, r.error)) =
      some (.failed, some ⟨"TIMEOUT", "job exhausted its delivery attempts", false⟩) := by
  decide +kernel

end LeafWeb.Jobs
