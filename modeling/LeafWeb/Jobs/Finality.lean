import LeafWeb.Jobs.Reaper

namespace LeafWeb.Jobs

open Lib Transition Procedure Option JobRow

/-- Every write of `close_tenant_jobs` finds its job still in flight. -/
def closesInFlight (s : State) : Event → Bool
  | .resume process _ =>
    match s.tasks process with
    | .closing _ (jobId :: _) => (s.jobs.find jobId).all fun r => !r.status.isTerminal
    | _ => true
  | _ => true

def Closes (s : State) (e : Event) (jobId : String) : Prop :=
  ∃ process now, e = .resume process now ∧ (s.tasks process = .flagging jobId ∨
    ∃ stamp jobIds, s.tasks process = .closing stamp (jobId :: jobIds))

variable {cfg : Config} {s s₁ s₂ s₃ : State} {e : Event} {r r' r₁ r₂ r₃ : JobRow}

structure SameOutcome (r r' : JobRow) : Prop where
  status : r'.status = r.status
  result : r'.result = r.result
  error : r'.error = r.error
  fingerprint : r'.terminalFingerprint = r.terminalFingerprint
  attempt : r'.attempt = r.attempt

lemma SameOutcome.refl (r : JobRow) : SameOutcome r r := ⟨rfl, rfl, rfl, rfl, rfl⟩

lemma SameOutcome.trans (h : SameOutcome r₁ r₂) (h' : SameOutcome r₂ r₃) : SameOutcome r₁ r₃ :=
  ⟨h'.status.trans h.status, h'.result.trans h.result, h'.error.trans h.error,
    h'.fingerprint.trans h.fingerprint, h'.attempt.trans h.attempt⟩

lemma deliver_same (now : ℤ) (r : JobRow) :
    SameOutcome r (r.deliver now) ∧ (r.deliver now).progress = r.progress ∧
      (r.deliver now).leaseOwner = r.leaseOwner ∧
      (r.deliver now).leaseExpiresAt = r.leaseExpiresAt := by
  rw [deliver]
  split_ifs
  · exact ⟨.refl r, rfl, rfl, rfl⟩
  · exact ⟨⟨rfl, rfl, rfl, rfl, rfl⟩, rfl, rfl, rfl⟩

lemma change_terminal (hr : Change cfg s e r r') (ht : r.status.isTerminal) :
    SameOutcome r r' ∧ (closesInFlight s e → s.jobs.find r.jobId = some r → r'.progress = r.progress) := by
  cases hr with
  | claimed hc => rw [(claimable_inFlight hc).1] at ht; cases ht
  | beat hs => rw [hs] at ht; cases ht
  | finished _ _ ha =>
    simp [applicable, ht] at ha
  | touched => exact ⟨⟨rfl, rfl, rfl, rfl, rfl⟩, fun _ _ => rfl⟩
  | @delivered _ _ now _ =>
    exact ⟨(deliver_same now r).1, fun _ _ => (deliver_same now r).2.1⟩
  | released hs => rw [hs] at ht; cases ht
  | closed hs => rw [hs] at ht; cases ht
  | overwritten hts _ =>
    refine ⟨⟨rfl, rfl, rfl, rfl, rfl⟩, fun hc hf => ?_⟩
    rw [closesInFlight, hts] at hc
    simp [hf, ht] at hc

def Sound (cfg : Config) (r : JobRow) : Prop :=
  (r.status.isTerminal → r.leaseOwner = none ∧ r.leaseExpiresAt = none) ∧ r.attempt ≤ maxAttempts cfg

lemma sound_change (hr : Change cfg s e r r') (h : Sound cfg r) : Sound cfg r' := by
  cases hr with
  | claimed hc =>
    refine ⟨nofun, ?_⟩
    have ha := (claimable_inFlight hc).2.2
    exact Int.add_one_le_iff.mpr ha
  | beat hs =>
    refine ⟨fun ht => ?_, h.2⟩
    rw [show (r.beat cfg _ _).status = _ from hs] at ht
    cases ht
  | finished => exact ⟨fun _ => ⟨rfl, rfl⟩, h.2⟩
  | touched => exact h
  | @delivered _ _ now ht =>
    obtain ⟨hsm, _, ho, he⟩ := deliver_same now r
    rw [Sound, hsm.status, hsm.attempt, ho, he]
    exact h
  | released => exact ⟨nofun, h.2⟩
  | closed | overwritten => exact ⟨fun _ => ⟨rfl, rfl⟩, h.2⟩

def Shut (r : JobRow) : Prop :=
  r.status = .failed ∨ (r.status.isTerminal = false ∧ r.progress = closedProgress ∧ r.leaseOwner = none)

lemma shut_change (hr : Change cfg s e r r') (h : Shut r) : Shut r' := by
  obtain hf | ⟨hs, hp, ho⟩ := h
  · have ht : r.status.isTerminal := by rw [hf]; rfl
    exact .inl ((change_terminal hr ht).1.status.trans hf)
  cases hr with
  | claimed hc => exact absurd hp (claimable_inFlight hc).2.1
  | beat _ hh => cases (heldBy_lease hh).1.symm.trans ho
  | finished _ _ happ hcl =>
    simp only [applicable, hp, Bool.and_eq_true] at happ
    obtain ⟨⟨_, ha⟩, _⟩ := happ
    exact .inl (hcl (by simpa using ha))
  | touched ht => rw [hs] at ht; cases ht
  | delivered ht => rw [hs] at ht; cases ht
  | released _ _ hp' => exact absurd hp hp'
  | closed => exact .inr ⟨hs, rfl, rfl⟩
  | overwritten _ ht => rw [hs] at ht; cases ht

lemma validateTerminalContext_complete {o : Outcome} (ho : o.status = .complete)
    (hv : validateTerminalContext cfg r o = .ok ()) : ∃ p, o.provenance = some p ∧ p.attempt = some r.attempt := by
  obtain ⟨_, _, hv⟩ := except_bind_ok hv
  rw [ho] at hv
  cases hp : o.provenance with
  | none => rw [hp] at hv; cases hv
  | some p =>
    rw [hp] at hv
    refine ⟨p, rfl, ?_⟩
    by_contra ha
    have hf : validateProvenance cfg r o p = .error _ := if_pos ha
    cases hf.symm.trans hv

lemma change_complete (hr : Change cfg s e r r') (hn : r.status ≠ .complete) (hc : r'.status = .complete) :
    r'.attempt = r.attempt ∧ ∃ p, r'.provenance = some p ∧ p.attempt = some r.attempt := by
  cases hr with
  | claimed | released => cases hc
  | beat | touched | closed | overwritten => exact absurd hc hn
  | finished _ hv => exact ⟨rfl, validateTerminalContext_complete hc hv⟩
  | delivered => rw [deliver_status] at hc; exact absurd hc hn

variable {jobId workerId : String} {n now : ℤ}

lemma sound_step (e : Event) (h : ∀ jobId r, s.jobs.find jobId = some r → Sound cfg r) :
    ∀ jobId r, (step cfg s e).2.jobs.find jobId = some r → Sound cfg r := by
  intro jobId r hf
  have hs := step_jobs cfg s e
  cases hold : s.jobs.find jobId with
  | none =>
    obtain ⟨job, now, rfl⟩ := hs.new hold hf
    exact ⟨nofun, le_trans Int.one_nonneg (le_max_left _ _)⟩
  | some r₀ =>
    obtain ⟨r₁, hf₁, rfl | hr⟩ := hs.row hold
    · cases hf.symm.trans hf₁
      exact h jobId _ hold
    · cases hf.symm.trans hf₁
      exact sound_change hr (h jobId r₀ hold)

lemma sound_run (cfg : Config) (es : List Event) (jobId : String) (r : JobRow)
    (hf : (after (step cfg) .empty es).jobs.find jobId = some r) : Sound cfg r := by
  refine invariant (I := fun s : State => ∀ jobId r, s.jobs.find jobId = some r → Sound cfg r)
    ?_ (fun t e h => sound_step e h) es jobId r hf
  intro jobId r h
  cases h

def Kept (progress : Bool) (s s' : State) : Prop :=
  ∀ jobId r, s.jobs.find jobId = some r → ∃ r', s'.jobs.find jobId = some r' ∧
    (r.status.isTerminal → SameOutcome r r' ∧ (progress → r'.progress = r.progress))

lemma Kept.refl (progress : Bool) (s : State) : Kept progress s s :=
  fun _ r hf => ⟨r, hf, fun _ => ⟨.refl r, fun _ => rfl⟩⟩

lemma Kept.trans {progress : Bool} (h : Kept progress s₁ s₂) (h' : Kept progress s₂ s₃) : Kept progress s₁ s₃ := by
  intro jobId r hf
  obtain ⟨r₂, hf₂, hr₂⟩ := h jobId r hf
  obtain ⟨r₃, hf₃, hr₃⟩ := h' jobId r₂ hf₂
  refine ⟨r₃, hf₃, fun ht => ?_⟩
  obtain ⟨hs, hp⟩ := hr₂ ht
  obtain ⟨hs', hp'⟩ := hr₃ (by rw [hs.status]; exact ht)
  exact ⟨hs.trans hs', fun h => (hp' h).trans (hp h)⟩

lemma kept_step (progress : Bool) (s : State) (e : Event) (hc : progress → closesInFlight s e) :
    Kept progress s (step cfg s e).2 := by
  intro jobId r hf
  obtain ⟨r', hf', rfl | hr⟩ := (step_jobs cfg s e).row hf
  · exact ⟨r', hf', fun _ => ⟨.refl r', fun _ => rfl⟩⟩
  · refine ⟨r', hf', fun ht => ⟨(change_terminal hr ht).1, fun hp => ?_⟩⟩
    exact (change_terminal hr ht).2 (hc hp) (by rw [Table.find_key hf]; exact hf)

lemma kept_run (cfg : Config) (s : State) (es : List Event) : Kept false s (after (step cfg) s es) :=
  related (I := fun _ => True) (Kept.refl false) (fun _ _ _ => Kept.trans) (fun _ _ _ => trivial)
    (fun t e _ => kept_step false t e nofun) trivial es

lemma kept_run_progress (cfg : Config) (s : State) (es : List Event)
    (hc : Along (step cfg) (fun s e => closesInFlight s e) s es) : Kept true s (after (step cfg) s es) :=
  related_along (I := fun _ => True) (Kept.refl true) (fun _ _ _ => Kept.trans)
    (fun _ _ _ _ => trivial) (fun t e _ h => kept_step true t e fun _ => h) trivial es hc

lemma shut_run (cfg : Config) (s : State) (es : List Event) (h : ∃ r, s.jobs.find jobId = some r ∧ Shut r) :
    ∃ r, (after (step cfg) s es).jobs.find jobId = some r ∧ Shut r := by
  refine invariant (I := fun s : State => ∃ r, s.jobs.find jobId = some r ∧ Shut r) h ?_ es
  rintro t e ⟨r, hf, hs⟩
  obtain ⟨r', hf', rfl | hr⟩ := (step_jobs cfg t e).row hf
  · exact ⟨r', hf', hs⟩
  · exact ⟨r', hf', shut_change hr hs⟩

lemma updateJob_find {f : JobRow → JobRow} {jobs : JobTable} {cond : JobRow → Bool}
    (hf : ∀ r, (f r).jobId = r.jobId) (hfn : jobs.find jobId = some r) (hc : cond r) :
    (updateJob jobs jobId cond f hf).1 = true ∧ (updateJob jobs jobId cond f hf).2.find jobId = some (f r) := by
  rw [updateJob, hfn, any_some, if_pos hc]
  exact ⟨rfl, Table.find_modify_self hf hfn⟩

lemma closes_shut (cfg : Config) (hcl : Closes s e jobId)
    (hf : s.jobs.find jobId = some r) (hs : r.status.isTerminal = false) :
    ∃ r', (step cfg s e).2.jobs.find jobId = some r' ∧ Shut r' := by
  have hsh : ∀ now, Shut (r.close now) := fun now => .inr ⟨hs, rfl, rfl⟩
  obtain ⟨process, now, rfl, ht | ⟨stamp, jobIds, ht⟩⟩ := hcl
  · refine ⟨r.close now, ?_, hsh now⟩
    rw [step, ht]
    exact (updateJob_find (close_jobId now) hf (by simp [hs])).2
  · refine ⟨r.close stamp, ?_, hsh stamp⟩
    rw [step, ht]
    exact (updateJob_find (close_jobId stamp) hf rfl).2

lemma claim_answer (h : (step cfg s (.claim jobId workerId now)).1 = .claimed (some n)) :
    ∃ r, s.jobs.find jobId = some r ∧ n = r.attempt + 1 ∧
      ∃ r', (step cfg s (.claim jobId workerId now)).2.jobs.find jobId = some r' ∧ r'.attempt = r.attempt + 1 := by
  rw [step, claimLease] at h ⊢
  cases hf : s.jobs.find jobId with
  | none => simp [updateJob, hf] at h
  | some r =>
    by_cases hc : claimable cfg now r
    · obtain ⟨ht, hr⟩ := updateJob_find (claim_jobId cfg workerId now) hf hc
      refine ⟨r, rfl, ?_, _, hr, rfl⟩
      simp only [ht, hr, if_true, map_some, Answer.claimed.injEq, some.injEq] at h
      exact h.symm
    · simp [updateJob, hf, hc] at h

theorem terminal_job_final (cfg : Config) (es : List Event) :
    -- a terminal job keeps its outcome and has no lease
    (∀ pre suf jobId r, es = pre ++ suf →
      (after (step cfg) .empty pre).jobs.find jobId = some r → r.status.isTerminal →
      ∃ r', (after (step cfg) .empty es).jobs.find jobId = some r' ∧ SameOutcome r r' ∧
        r'.leaseOwner = none ∧ r'.leaseExpiresAt = none ∧
        (Along (step cfg) (fun s e => closesInFlight s e) .empty es → r'.progress = r.progress)) ∧
    -- a job closed in flight never succeeds
    (∀ pre e suf jobId r r', es = pre ++ e :: suf →
      Closes (after (step cfg) .empty pre) e jobId →
      (after (step cfg) .empty pre).jobs.find jobId = some r → r.status.isTerminal = false →
      (after (step cfg) .empty es).jobs.find jobId = some r' → r'.status ≠ .complete) ∧
    -- claims count the attempts, up to the limit
    (∀ jobId workerId now n,
      (step cfg (after (step cfg) .empty es) (.claim jobId workerId now)).1 = .claimed (some n) →
      ∃ r, (after (step cfg) .empty es).jobs.find jobId = some r ∧ n = r.attempt + 1 ∧
        ∃ r', (step cfg (after (step cfg) .empty es) (.claim jobId workerId now)).2.jobs.find
          jobId = some r' ∧ r'.attempt = r.attempt + 1) ∧
    (∀ jobId r, (after (step cfg) .empty es).jobs.find jobId = some r → r.attempt ≤ maxAttempts cfg) ∧
    -- a success names the current attempt
    (∀ e jobId r r', (after (step cfg) .empty es).jobs.find jobId = some r →
      r.status ≠ .complete →
      (step cfg (after (step cfg) .empty es) e).2.jobs.find jobId = some r' →
      r'.status = .complete →
      r'.attempt = r.attempt ∧ ∃ p, r'.provenance = some p ∧ p.attempt = some r.attempt) := by
  refine ⟨?_, ?_, fun _ _ _ _ h => claim_answer h, fun _ _ h => (sound_run cfg es _ _ h).2, ?_⟩
  · rintro pre suf jobId r rfl hfn ht
    rw [after_append]
    obtain ⟨r', hfn', hr⟩ := kept_run cfg (after (step cfg) .empty pre) suf jobId r hfn
    have hsm := (hr ht).1
    obtain ⟨ho, he⟩ := (sound_run cfg (pre ++ suf) jobId r'
      (by rw [after_append]; exact hfn')).1 (by rw [hsm.status]; exact ht)
    refine ⟨r', hfn', hsm, ho, he, fun hc => ?_⟩
    rw [along_append] at hc
    obtain ⟨r'', hfn'', hr''⟩ := kept_run_progress cfg _ suf hc.2 jobId r hfn
    cases hfn'.symm.trans hfn''
    exact (hr'' ht).2 rfl
  · rintro pre e suf jobId r r' rfl hcl hfn hs hfn'
    obtain ⟨r'', hfn'', hsh⟩ := shut_run cfg _ suf (closes_shut cfg hcl hfn hs)
    rw [after_append, after_cons] at hfn'
    cases hfn'.symm.trans hfn''
    intro hc
    obtain hf | ⟨ht, _⟩ := hsh
    · cases hf.symm.trans hc
    · rw [hc] at ht
      cases ht
  · intro e jobId r r' hfn hn hfn' hc
    obtain ⟨r'', hfn'', rfl | hr⟩ := (step_jobs cfg _ e).row hfn
    · cases hfn'.symm.trans hfn''
      exact absurd hc hn
    · cases hfn'.symm.trans hfn''
      exact change_complete hr hn hc

def firstSuccess : Callback where
  outcome := ⟨.complete, some ⟨true, none, ""⟩, none, some ⟨some 1, some "local", none, none, none, none, ""⟩⟩
  workerId := some "worker-1"
  nativeOwner := false

def successEvents : List Event :=
  [.submit sampleJob 0, .claim "job" "worker-1" 1000000, .callback "job" firstSuccess 2000000]

def laterEvents : List Event :=
  [.closeTenant 0 "tenant" 3000000, .resume 0 4000000, .deliver "job" 5000000, .claim "job" "worker-2" 90000000]

theorem terminal_job_final_success :
    ∃ r', (after (step defaults) .empty (successEvents ++ laterEvents)).jobs.find "job" = some r' ∧
      r'.status = .complete ∧ r'.progress = "done" ∧ r'.attempt = 1 ∧ r'.leaseOwner = none := by
  obtain ⟨r, hf⟩ : ∃ r, (after (step defaults) .empty successEvents).jobs.find "job" = some r :=
    isSome_iff_exists.mp (by decide +kernel)
  have hr : ((after (step defaults) .empty successEvents).jobs.find "job").map
      (fun r => (r.status, r.progress, r.attempt)) = some (.complete, "done", 1) := by
    decide +kernel
  rw [hf, map_some, some.injEq, Prod.mk.injEq, Prod.mk.injEq] at hr
  obtain ⟨hs, hp, ha⟩ := hr
  obtain ⟨r', hf', hsm, ho, _, hpr⟩ :=
    (terminal_job_final defaults (successEvents ++ laterEvents)).1 successEvents laterEvents "job" r
      rfl hf (by rw [hs]; rfl)
  exact ⟨r', hf', hsm.status.trans hs, (hpr (by decide +kernel)).trans hp, hsm.attempt.trans ha, ho⟩

def closedLateEvents : List Event :=
  [.submit sampleJob 0, .claim "job" "worker-1" 1000000, .closeTenant 0 "tenant" 1500000,
   .callback "job" firstSuccess 2000000]

theorem closing_rewrites_terminal_progress :
    ((after (step defaults) .empty closedLateEvents).jobs.find "job").map
      (fun r => (r.status, r.progress)) = some (.complete, "done") ∧
    ((step defaults (after (step defaults) .empty closedLateEvents)
      (.resume 0 3000000)).2.jobs.find "job").map (fun r => (r.status, r.progress)) =
      some (.complete, "closed") := by
  decide +kernel

end LeafWeb.Jobs
