import LeafWeb.Jobs.Processes

namespace LeafWeb.Jobs

open Lib Procedure Table

variable {cfg : Config} {s : State} {jobs : JobTable} {e : Event} {f : JobRow → JobRow} {jobId : String}
  {cb : Callback}

inductive Change (cfg : Config) (s : State) : Event → JobRow → JobRow → Prop
  | claimed {jobId workerId : String} {now : ℤ} {r : JobRow} (h : claimable cfg now r) :
      Change cfg s (.claim jobId workerId now) r (r.claim cfg workerId now)
  | beat {jobId workerId : String} {progress : Option String} {now : ℤ} {r : JobRow}
      (hs : r.status = .running) (hh : heldBy workerId now r) :
      Change cfg s (.heartbeat jobId workerId progress now) r (r.beat cfg progress now)
  | finished {e : Event} {r : JobRow} {o : Outcome} {workerId : Option String}
      {allowClosed : Bool} {now : ℤ} (ho : o.status.isTerminal)
      (hv : validateTerminalContext cfg r o = .ok ())
      (happ : applicable workerId allowClosed now r) (hclosed : allowClosed → o.status = .failed) :
      Change cfg s e r (r.finish cfg o now)
  | touched {e : Event} {r : JobRow} {now : ℤ} (ht : r.status.isTerminal) :
      Change cfg s e r (r.touch now)
  | delivered {e : Event} {r : JobRow} {now : ℤ} (ht : r.status.isTerminal) :
      Change cfg s e r (r.deliver now)
  | released {e : Event} {r : JobRow} {l : Release} (hs : r.status = .running)
      (hh : heldBy l.workerId l.now r) (hp : r.progress ≠ closedProgress) :
      Change cfg s e r (r.release l)
  | closed {e : Event} {r : JobRow} {now : ℤ} (hs : r.status.isTerminal = false) :
      Change cfg s e r (r.close now)
  | overwritten {process : ℕ} {now stamp : ℤ} {jobIds : List String} {r : JobRow}
      (htask : s.tasks process = .closing stamp (r.jobId :: jobIds)) (ht : r.status.isTerminal) :
      Change cfg s (.resume process now) r (r.close stamp)

inductive TableStep (cfg : Config) (s : State) (e : Event) (jobs : JobTable) : JobTable → Prop
  | same : TableStep cfg s e jobs jobs
  | inserted {job : Submission} {now : ℤ} {jobs' : JobTable}
      (h : jobs.insert (job.row now) = some jobs') : TableStep cfg s e jobs jobs'
  | changed {jobId : String} {r : JobRow} {f : JobRow → JobRow} (hf : ∀ r, (f r).jobId = r.jobId)
      (hfind : jobs.find jobId = some r) (hr : Change cfg s e r (f r)) :
      TableStep cfg s e jobs (jobs.modify jobId f hf)

namespace TableStep

variable {e : Event} {jobId : String} {r : JobRow} {jobs' : JobTable}

lemma row (h : TableStep cfg s e jobs jobs') (hfn : jobs.find jobId = some r) :
    ∃ r', jobs'.find jobId = some r' ∧ (r' = r ∨ Change cfg s e r r') := by
  cases h with
  | same => exact ⟨r, hfn, .inl rfl⟩
  | inserted hi =>
    exact ⟨r, find_insert_of_find hi hfn, .inl rfl⟩
  | @changed id r₀ f hf hfn₀ hr =>
    rw [find_modify]
    by_cases hk : jobId = id
    · subst hk
      cases hfn.symm.trans hfn₀
      exact ⟨f r, by rw [if_pos rfl, hfn, Option.map_some], .inr hr⟩
    · exact ⟨r, by rw [if_neg hk, hfn], .inl rfl⟩

lemma new (h : TableStep cfg s e jobs jobs') (hn : jobs.find jobId = none)
    (hfn : jobs'.find jobId = some r) : ∃ (job : Submission) (now : ℤ), r = job.row now := by
  cases h with
  | same => cases hn.symm.trans hfn
  | @inserted job now _ hi =>
    rw [find_insert hi] at hfn
    split_ifs at hfn
    · cases hfn
      exact ⟨job, now, rfl⟩
    · cases hn.symm.trans hfn
  | changed hf hfn₀ hr =>
    rw [find_modify, hn] at hfn
    split_ifs at hfn
    cases hfn

end TableStep

lemma updateJob_step {hf : ∀ (r : JobRow), (f r).jobId = r.jobId} {cond : JobRow → Bool}
    (h : ∀ r, jobs.find jobId = some r → cond r → Change cfg s e r (f r)) :
    TableStep cfg s e jobs (updateJob jobs jobId cond f hf).2 := by
  rw [updateJob]
  cases hfn : jobs.find jobId with
  | none => exact .same
  | some r =>
    split_ifs with hc
    · exact .changed hf hfn (h r hfn hc)
    · exact .same

lemma validateCallback_ok (h : validateCallback cb = .ok ()) : cb.outcome.status.isTerminal := by
  rw [validateCallback] at h
  cases hs : cb.outcome.status with
  | submitted | running => rw [hs] at h; cases h
  | complete | failed => rfl

lemma call_step {next : Task} {now : ℤ} {allowClosed : Bool} (hc : allowClosed → cb.outcome.status = .failed) :
    TableStep cfg s e jobs (call cfg jobs jobId cb allowClosed now next).jobs := by
  rw [call]
  cases h : completeCallback cfg jobs jobId cb allowClosed now with
  | error message => exact .same
  | ok p =>
    obtain ⟨answer, jobs'⟩ := p
    obtain ⟨_, hcb, h⟩ := except_bind_ok h
    dsimp only
    cases hf : jobs.find jobId with
    | none =>
      rw [hf] at h
      cases h
      exact .same
    | some r =>
      simp only [hf] at h
      obtain ⟨_, hv, h⟩ := except_bind_ok h
      split_ifs at h with ha ht hfp
      · cases h
        exact .changed _ hf (.finished (validateCallback_ok hcb) hv ha hc)
      · cases h
        exact .same
      · cases h
        exact .changed _ hf (.touched ht)
      · cases h
        exact .same

lemma advance_step (s : State) (process : ℕ) (now : ℤ) :
    TableStep cfg s (.resume process now) s.jobs (advance cfg s.jobs now (s.tasks process)).jobs := by
  cases hts : s.tasks process with
  | idle => exact .same
  | sweeping rows =>
    cases rows with
    | nil => exact .same
    | cons row rows =>
      rw [advance]
      split_ifs
      · exact call_step fun _ => rfl
      · exact .same
  | exhausted | unrecoverable | finishing => exact call_step nofun
  | releasing l =>
    refine updateJob_step fun r _ hc => ?_
    simp only [Bool.and_eq_true, decide_eq_true_eq] at hc
    exact .released hc.1.1.1 hc.1.2 hc.2
  | flagging jobId =>
    refine updateJob_step fun r _ hc => ?_
    exact .closed (by simpa using hc)
  | closing stamp jobIds =>
    cases jobIds with
    | nil => exact .same
    | cons jobId jobIds =>
      refine updateJob_step fun r hf _ => ?_
      cases ht : r.status.isTerminal with
      | true => exact .overwritten (by rw [hts, find_key hf]) ht
      | false => exact .closed ht

theorem step_jobs (cfg : Config) (s : State) (e : Event) : TableStep cfg s e s.jobs (step cfg s e).2.jobs := by
  cases e with
  | submit job now =>
    rw [step]
    cases h : s.jobs.insert (job.row now) with
    | none => exact .same
    | some jobs' => exact .inserted h
  | claim jobId workerId now => exact updateJob_step fun r _ hc => .claimed hc
  | heartbeat jobId workerId progress now =>
    refine updateJob_step fun r _ hc => ?_
    rw [Bool.and_eq_true, decide_eq_true_eq] at hc
    exact .beat hc.1 hc.2
  | callback jobId cb now => exact call_step nofun
  | deliver jobId now => exact updateJob_step fun r _ hc => .delivered hc
  | sweep | retryOrFinish | markClosed | closeTenant => exact .same
  | resume process now => exact advance_step s process now

end LeafWeb.Jobs
