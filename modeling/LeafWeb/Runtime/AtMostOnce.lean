import LeafWeb.Runtime.Supervisor

namespace LeafWeb.Runtime

open Lib Transition Retention List Option Int Supervisor Outcome

variable {cfg : Settings} {s : Supervisor} {e : Event}

def Call.phase : Call → Option (Key × Bool)
  | .starting body _ | .sending body _ => some (body.key, false)
  | .replacing body .. | .closing body _ | .storing body _ => some (body.key, true)
  | _ => none

def Event.call (s : Supervisor) : Event → Option Call
  | .resume i _ => s.calls[i]?
  | _ => none

def Call.alone (s : Supervisor) : Call → Prop
  | .looking body _ => ∀ c ∈ s.calls, ∀ p ∈ c.phase, p.1 ≠ body.key
  | .sending _ k => ∀ slot ∈ s.slots[k]?, slot.binding.isSome
  | _ => True

instance (s : Supervisor) : (c : Call) → Decidable (c.alone s)
  | .looking .. => inferInstanceAs (Decidable (∀ c ∈ s.calls, ∀ p ∈ c.phase, _ ≠ _))
  | .sending _ k => inferInstanceAs (Decidable (∀ slot ∈ s.slots[k]?, _ = true))
  | .returned | .checking .. | .recording .. | .starting .. | .replacing .. | .closing .. |
    .storing .. | .loading .. | .abandoning .. | .rejecting .. | .readying .. => isTrue trivial

/-- A lookup is made only while no other call works for its key, and an invocation is sent only to a
slot that is bound. -/
def Alone (s : Supervisor) (e : Event) : Prop := ∀ c ∈ e.call s, c.alone s

instance (s : Supervisor) (e : Event) : Decidable (Alone s e) := inferInstanceAs (Decidable (∀ c ∈ e.call s, _))

structure View where
  clock : ℤ
  cache : Cache
  phases : List (Option (Key × Bool))

def Supervisor.view (s : Supervisor) : View := ⟨s.clock, s.idempotency, s.calls.map Call.phase⟩

def Outcome.still (o : Outcome) : Prop := o.looked = none ∧ o.executed = none ∧ o.stored = none ∧ o.dropped = []

inductive Effect (cfg : Settings) (v : View) (i : ℕ) (o : Outcome) : View → Prop
  | idle {phases : List (Option (Key × Bool))} (hclock : v.clock ≤ o.clock)
      (hstill : o.still) (hphases : phases = v.phases ∨ phases = v.phases ++ [none]) :
      Effect cfg v i o ⟨o.clock, v.cache, phases⟩
  | enter {k : Key} {q : String} (hclock : v.clock ≤ o.clock)
      (hphase : v.phases[i]? = some none) (halone : ∀ p ∈ v.phases, ∀ x ∈ p, x.1 ≠ k)
      (hlooked : o.looked = some (k, q)) (hexecuted : o.executed = none) (hstored : o.stored = none)
      (hdropped : o.dropped = (expired o.clock v.cache).map (·, .expired))
      (hmiss : find (purge o.clock v.cache) k = none) :
      Effect cfg v i o ⟨o.clock, purge o.clock v.cache, v.phases.set i (some (k, false))⟩
  | answer {k : Key} {q : String} {prior : Retained Key (String × Response)}
      {cache : Cache} (hclock : v.clock ≤ o.clock)
      (hlooked : o.looked = some (k, q)) (hexecuted : o.executed = none) (hstored : o.stored = none)
      (hdropped : o.dropped = (expired o.clock v.cache).map (·, .expired))
      (hhit : find (purge o.clock v.cache) k = some prior)
      (hanswered : prior.value.1 = q → o.answered = some prior.value.2)
      (hcache : cache = purge o.clock v.cache ∨ cache = touch (purge o.clock v.cache) k) :
      Effect cfg v i o ⟨o.clock, cache, v.phases⟩
  | sent {k : Key} (hclock : v.clock ≤ o.clock)
      (hphase : v.phases[i]? = some (some (k, false))) (hexecuted : o.executed = none ∨ o.executed = some k)
      (hlooked : o.looked = none) (hstored : o.stored = none) (hdropped : o.dropped = []) :
      Effect cfg v i o ⟨o.clock, v.cache, v.phases.set i (some (k, true))⟩
  | left {k : Key} (hclock : v.clock ≤ o.clock) (hstill : o.still)
      (hphase : v.phases[i]? = some (some (k, false))) :
      Effect cfg v i o ⟨o.clock, v.cache, v.phases.set i none⟩
  | stored {k : Key} {q : String} {r : Response} {cache : Cache}
      (hclock : v.clock ≤ o.clock) (hphase : v.phases[i]? = some (some (k, true)))
      (hlooked : o.looked = none) (hexecuted : o.executed = none) (hstored : o.stored = some (k, q, r))
      (hcache : cache = store (purge o.clock v.cache) ⟨k, o.clock + cfg.idempotencyTtl, q, r⟩)
      (hdropped : o.dropped = (expired o.clock v.cache).map (·, .expired) ++
        (excess cfg.idempotencyMaxEntries cache).map (·, .evicted)) :
      Effect cfg v i o ⟨o.clock, trim cfg.idempotencyMaxEntries cache, v.phases.set i none⟩
  | released {own : Retained Key (String × Response) → Bool} (hclock : v.clock ≤ o.clock)
      (hlooked : o.looked = none) (hexecuted : o.executed = none) (hstored : o.stored = none)
      (hdropped : o.dropped = (v.cache.filter own).map fun e => (e.key, .released)) :
      Effect cfg v i o ⟨o.clock, v.cache.filter fun e => !own e, v.phases⟩

variable {i k : ℕ} {o : Outcome} {c : Call} {body : Body} {turn : Turn}

lemma view_set (s : Supervisor) (i : ℕ) (c : Call) (cache : Cache) :
    ({ s.set i c with idempotency := cache } : Supervisor).view =
      ⟨s.clock, cache, s.view.phases.set i c.phase⟩ := by
  simp [Supervisor.view, Supervisor.set]

section

variable (h : s.calls[i]? = some c)
include h

lemma phase_at : s.view.phases[i]? = some c.phase := by
  rw [view, getElem?_map, h, map_some]

lemma phases_set : s.view.phases.set i c.phase = s.view.phases := by
  obtain ⟨hlt, hp⟩ := List.getElem?_eq_some_iff.mp (phase_at h)
  rw [← hp, set_getElem_self]

lemma Effect.onward {c' : Call} {s' : Supervisor} {n : ℕ} (hc : s'.calls = s.calls.set i c' := by rfl)
    (hp : c'.phase = c.phase := by rfl) (hch : s'.idempotency = s.idempotency := by rfl)
    (hcl : s'.clock = s.clock + n := by rfl) (ho : o.clock = s.clock + n := by rfl)
    (hs : o.still := by exact ⟨rfl, rfl, rfl, rfl⟩) : Effect cfg s.view i o s'.view := by
  have hv : s'.view = ⟨o.clock, s.view.cache, s.view.phases⟩ := by
    rw [← phases_set h, ← hp]
    simp [view, hc, hch, hcl, ho]
  rw [hv]
  refine .idle ?_ hs (.inl rfl)
  rw [ho]
  exact le_add_of_nonneg_right (natCast_nonneg n)

end

lemma still_quiet (t : ℤ) : (quiet t).still := ⟨rfl, rfl, rfl, rfl⟩

lemma Effect.nothing (n : ℕ) : Effect cfg s.view i (.quiet (s.clock + n)) { s with clock := s.clock + n }.view :=
  .idle (le_add_of_nonneg_right (natCast_nonneg n)) (still_quiet _) (.inl rfl)

lemma assign_effect (binding : Binding) : Effect cfg s.view i (.quiet s.clock) (assign s binding).view := by
  unfold assign
  split
  · exact .idle le_rfl (still_quiet _) (.inl rfl)
  split
  · exact .idle le_rfl (still_quiet _) (.inl rfl)
  · exact .idle le_rfl (still_quiet _) (.inr map_append)

lemma release_effect (assignmentId : String) :
    Effect cfg s.view i (release s assignmentId).1 (release s assignmentId).2.view := by
  unfold release
  split
  · exact .idle le_rfl (still_quiet _) (.inl rfl)
  split_ifs
  · exact .idle le_rfl (still_quiet _) (.inl rfl)
  · exact .released le_rfl rfl rfl rfl rfl

lemma lookup_effect (hca : s.calls[i]? = some (.looking body k))
    (ha : ∀ c ∈ s.calls, ∀ p ∈ c.phase, p.1 ≠ body.key) (n : ℕ) (now : ℤ) :
    let u := { s with clock := s.clock + n }
    Effect cfg s.view i (lookup cfg u i body k now).1 (lookup cfg u i body k now).2.view := by
  intro u
  have hcl : s.clock ≤ u.clock := le_add_of_nonneg_right (natCast_nonneg n)
  unfold lookup
  dsimp only
  split
  next hm =>
    rw [view_set]
    refine .enter hcl (phase_at hca) ?_ rfl rfl rfl rfl hm
    intro p hp x hx
    obtain ⟨c, hc, rfl⟩ := mem_map.mp hp
    exact ha c hc x hx
  next prior hh =>
    have hph : u.view.phases.set i Call.returned.phase = s.view.phases :=
      phases_set (s := s) (c := .looking body k) hca
    split_ifs with hcn <;> rw [view_set, hph]
    · exact .answer hcl rfl rfl rfl rfl hh (fun hs => absurd hs hcn) (.inl rfl)
    · exact .answer hcl rfl rfl rfl rfl hh (fun _ => rfl) (.inr rfl)

lemma send_effect (hca : s.calls[i]? = some (.sending body k))
    (hbn : ∀ slot ∈ s.slots[k]?, slot.binding.isSome) (n : ℕ) :
    let u := { s with clock := s.clock + n }
    Effect cfg s.view i (send u i body k turn).1 (send u i body k turn).2.view := by
  intro u
  have hc : s.clock ≤ u.clock := le_add_of_nonneg_right (natCast_nonneg n)
  have hs : ∀ (u' : Supervisor) (c : Call) (executed : Bool), c.phase = some (body.key, true) →
      u'.calls = s.calls.set i c → u'.idempotency = s.idempotency → u'.clock = u.clock →
        Effect cfg s.view i
          { quiet u.clock with executed := if executed then some body.key else none } u'.view := by
    intro u' c executed hp hcl hch hu'
    have hv : u'.view = ⟨u.clock, s.view.cache, s.view.phases.set i (some (body.key, true))⟩ := by
      simp [view, hcl, hch, hu', hp]
    rw [hv]
    refine .sent hc (phase_at hca) ?_ rfl rfl rfl
    cases executed
    · exact .inl rfl
    · exact .inr rfl
  unfold send
  cases hsl : u.slots[k]? with
  | none => exact Effect.nothing n
  | some slot =>
    dsimp only
    by_cases hl : slot.locked
    · rw [if_pos hl]
      exact Effect.nothing n
    rw [if_neg hl]
    cases hr : (slot.invoke body.assignmentId turn.reply).2 with
    | timeout | broken | failed => exact hs _ _ (slot.invoke _ _).1 rfl rfl rfl rfl
    | ok bytes payload =>
      obtain ⟨b, hb⟩ := isSome_iff_exists.mp (hbn slot hsl)
      rw [hb]
      exact hs _ _ (slot.invoke _ _).1 rfl rfl rfl rfl

lemma store_effect {response : Response} (hc : s.calls[i]? = some (.storing body response)) (n : ℕ) :
    let u := { s with clock := s.clock + n }
    Effect cfg s.view i (storeResponse cfg u i body response).1 (storeResponse cfg u i body response).2.view := by
  simp only [storeResponse, view_set]
  exact .stored (le_add_of_nonneg_right (natCast_nonneg n)) (phase_at hc) rfl rfl rfl rfl rfl

lemma resume_effect (ha : Alone s (.resume i turn)) :
    Effect cfg s.view i (step cfg s (.resume i turn)).1 (step cfg s (.resume i turn)).2.view := by
  have hcl : s.clock ≤ s.clock + turn.elapsed := le_add_of_nonneg_right (natCast_nonneg turn.elapsed)
  simp only [step, resume]
  cases hc : s.calls[i]? with
  | none => exact Effect.nothing _
  | some c =>
    have ha := ha c hc
    cases c with
    | returned => exact Effect.nothing _
    | checking body authorization =>
      dsimp only
      split <;> exact Effect.onward hc
    | recording body k sequence => exact Effect.onward hc
    | looking body k => exact lookup_effect hc ha _ _
    | starting body k =>
      have hl : ∀ o : Outcome, o.clock = s.clock + turn.elapsed → o.still →
          Effect cfg s.view i o
            (({ s with clock := s.clock + turn.elapsed } : Supervisor).set i .returned).view := by
        intro o ho hs
        have hv : (({ s with clock := s.clock + turn.elapsed } : Supervisor).set i .returned).view =
            ⟨o.clock, s.view.cache, s.view.phases.set i none⟩ := by
          rw [ho]
          exact view_set { s with clock := _ } i .returned s.idempotency
        rw [hv]
        exact .left (ho ▸ hcl) hs (phase_at hc)
      dsimp only
      split_ifs
      · exact hl _ rfl (still_quiet _)
      · exact Effect.onward hc
      · exact hl _ rfl ⟨rfl, rfl, rfl, rfl⟩
    | sending body k => exact send_effect hc ha _
    | replacing | closing => exact Effect.onward hc
    | storing body response => exact store_effect hc _
    | loading binding k =>
      simp only [loadChild]
      split
      · exact Effect.nothing _
      split_ifs
      · exact Effect.nothing _
      · refine Effect.onward hc rfl ?_
        split <;> rfl
    | abandoning k | rejecting k | readying k => exact Effect.onward hc

def Event.caller : Event → ℕ
  | .resume i _ => i
  | _ => 0

lemma step_effect (ha : Alone s e) : Effect cfg s.view e.caller (step cfg s e).1 (step cfg s e).2.view := by
  cases e with
  | invoke body authorization =>
    exact .idle le_rfl (still_quiet _) (.inr map_append)
  | assign binding => exact assign_effect binding
  | release assignmentId => exact release_effect assignmentId
  | exit k => exact .idle le_rfl (still_quiet _) (.inl rfl)
  | resume i turn => exact resume_effect ha

variable {A : Type} {x : A} {q : String}

def Outcome.frees (o : Outcome) (k : Key) : Prop := (k, .evicted) ∈ o.dropped ∨ (k, .released) ∈ o.dropped
  deriving Decidable

/-- An execution, the call that made it and what this call has stored of it since, and when. -/
structure Run where
  key : Key
  call : ℕ
  stored : Option (ℤ × String × Response)

def Run.after (p : Run) (i : ℕ) (o : Outcome) : Run :=
  { p with stored :=
      match o.stored with
      | some (k, w) => if k = p.key ∧ i = p.call then some (o.clock, w) else p.stored
      | none => p.stored }

def Run.Over (cfg : Settings) (p : Run) (t : ℤ) : Prop := ∃ w ∈ p.stored, w.1 + cfg.idempotencyTtl ≤ t

def guard (g : List Run) (i : ℕ) (o : Outcome) : List Run :=
  o.executed.toList.map (⟨·, i, none⟩) ++ (g.filter fun p => ¬o.frees p.key).map (·.after i o)

variable {g : List Run} {v v' : View} {k : Key} {p : Run} {r : Response} {w : String × Response}
  {phases : List (Option (Key × Bool))} {t n : ℤ}

lemma Run.Over.mono (h : p.Over cfg t) (hn : t ≤ n) : p.Over cfg n := by
  obtain ⟨w, hw, ho⟩ := h
  exact ⟨w, hw, ho.trans hn⟩

lemma Run.after_of_call (h : o.stored = some (k, w)) (hc : k = p.key ∧ i = p.call) :
    (p.after i o).stored = some (o.clock, w) := by
  simp [Run.after, h, hc]

lemma Run.after_of_other (h : o.stored = some (k, w)) (hc : ¬(k = p.key ∧ i = p.call)) : p.after i o = p := by
  simp [Run.after, h, hc]

lemma Run.after_of_none (h : o.stored = none) : p.after i o = p := by
  simp [Run.after, h]

structure Inv (cfg : Settings) (g : List Run) (v : View) : Prop where
  single : Single v.cache
  alone : ∀ (i j : ℕ) k b b', v.phases[i]? = some (some (k, b)) → v.phases[j]? = some (some (k, b')) → i = j
  absent : ∀ (i : ℕ) k b, v.phases[i]? = some (some (k, b)) → ∀ e ∈ v.cache, e.key ≠ k
  guarded : ∀ p ∈ g, p.Over cfg v.clock ∨
    (∃ e ∈ v.cache, e.key = p.key ∧ ∃ t, p.stored = some (t, e.value) ∧ t + cfg.idempotencyTtl = e.expiresAt) ∨
      v.phases[p.call]? = some (some (p.key, true))
  waiting : ∀ (i : ℕ) k, v.phases[i]? = some (some (k, false)) → ∀ p ∈ g, p.key = k → p.Over cfg v.clock

structure Good (cfg : Settings) (g : List Run) (o : Outcome) : Prop where
  spaced : ∀ k ∈ o.executed, ∀ p ∈ g, p.key = k → p.Over cfg o.clock
  replayed : ∀ k q, o.looked = some (k, q) → ∀ p ∈ g, p.key = k → p.Over cfg o.clock ∨
    ∃ t q' r, p.stored = some (t, q', r) ∧ (q' = q → o.answered = some r)

lemma mem_guard (h : p ∈ guard g i o) :
    (o.executed = some p.key ∧ p.call = i) ∨ ∃ p' ∈ g, ¬o.frees p'.key ∧ p = p'.after i o := by
  rcases mem_append.mp h with hn | hold
  · obtain ⟨k, hk, rfl⟩ := mem_map.mp hn
    exact .inl ⟨mem_toList.mp hk, rfl⟩
  obtain ⟨p', hp, rfl⟩ := mem_map.mp hold
  obtain ⟨hp, hf⟩ := mem_filter.mp hp
  exact .inr ⟨p', hp, of_decide_eq_true hf, rfl⟩

lemma mem_guard_of_executed (h : o.executed = some k) : ⟨k, i, none⟩ ∈ guard g i o :=
  mem_append_left _ (mem_map.mpr ⟨k, mem_toList.mpr h, rfl⟩)

lemma mem_guard_of_mem (h : p ∈ g) (hf : ¬o.frees p.key) : p.after i o ∈ guard g i o :=
  mem_append_right _ (mem_map_of_mem (mem_filter.mpr ⟨h, decide_eq_true hf⟩))

lemma guard_of_unexecuted (he : o.executed = none) (h : p ∈ guard g i o) :
    ∃ p' ∈ g, ¬o.frees p'.key ∧ p = p'.after i o := by
  rcases mem_guard h with ⟨hn, -⟩ | hold
  · cases he.symm.trans hn
  · exact hold

lemma Run.mem_stored_after {x : ℤ × String × Response} (h : x ∈ (p.after i o).stored) :
    x ∈ p.stored ∨ o.stored = some (p.key, x.2) ∧ o.clock = x.1 ∧ i = p.call := by
  simp only [Run.after] at h
  split at h
  next k w hst =>
    split_ifs at h with hs
    · cases h
      exact .inr ⟨hs.1 ▸ hst, rfl, hs.2⟩
    · exact .inl h
  · exact .inl h

lemma getElem?_set_some {l : List A} {y : A} {j : ℕ} (h : (l.set i x)[j]? = some y) :
    (j = i ∧ x = y) ∨ j ≠ i ∧ l[j]? = some y := by
  rw [getElem?_set] at h
  split_ifs at h with hij hlt
  · exact .inl ⟨hij.symm, some.inj h⟩
  · exact .inr ⟨fun hji => hij hji.symm, h⟩

lemma getElem?_of_concat_none {l : List (Option A)} (h : (l ++ [none])[i]? = some (some x)) :
    l[i]? = some (some x) := by
  rw [getElem?_append] at h
  split_ifs at h
  · exact h
  · cases mem_singleton.mp (mem_of_getElem? h)

lemma Inv.shrink (h : Inv cfg g v) (hc : v.clock ≤ v'.clock) (hec : o.executed = none)
    (hs : o.stored = none) (hsn : Single v'.cache)
    (hph : ∀ (j : ℕ) x, v'.phases[j]? = some (some x) → v.phases[j]? = some (some x))
    (ho : ∀ (j : ℕ) k, v.phases[j]? = some (some (k, true)) → v'.phases[j]? = some (some (k, true)))
    (hsub : ∀ e ∈ v'.cache, e ∈ v.cache)
    (hls : ∀ e ∈ v.cache, e ∈ v'.cache ∨ o.frees e.key ∨ e.expiresAt ≤ v'.clock) : Inv cfg (guard g i o) v' := by
  have hg : ∀ p ∈ guard g i o, p ∈ g ∧ ¬o.frees p.key := by
    intro p hp
    obtain ⟨p', hp', hf, rfl⟩ := guard_of_unexecuted hec hp
    rw [Run.after_of_none hs]
    exact ⟨hp', hf⟩
  refine ⟨hsn, ?_, ?_, ?_, ?_⟩
  · intro a b k x y ha hb
    exact h.alone a b k x y (hph a _ ha) (hph b _ hb)
  · intro j k b hj e he
    exact h.absent j k b (hph j _ hj) e (hsub e he)
  · intro p hp
    obtain ⟨hp, hf⟩ := hg p hp
    rcases h.guarded p hp with hold | ⟨e, he, hk, t, hr, ht⟩ | hps
    · exact .inl (hold.mono hc)
    · rcases hls e he with hin | hfr | hpt
      · exact .inr (.inl ⟨e, hin, hk, t, hr, ht⟩)
      · exact absurd (hk ▸ hfr) hf
      · exact .inl ⟨_, hr, ht.trans_le hpt⟩
    · exact .inr (.inr (ho _ _ hps))
  · intro j k hj p hp hk
    exact (h.waiting j k (hph j _ hj) p (hg p hp).1 hk).mono hc

lemma Inv.purged (h : Inv cfg g ⟨n, v.cache, phases⟩)
    (hc : n ≤ o.clock) (hec : o.executed = none) (hs : o.stored = none) :
    Inv cfg (guard g i o) ⟨o.clock, purge o.clock v.cache, phases⟩ := by
  refine h.shrink hc hec hs (h.single.purge _) (fun _ _ hj => hj) (fun _ _ hj => hj) ?_ ?_
  · intro e he
    exact (mem_purge.mp he).1
  · intro e he
    exact (purge_or_expired o.clock he).imp_right fun hep => .inr hep.2

section

variable (h : Inv cfg g v)
include h

lemma Inv.congr {cache : Cache} (hs : Single cache)
    (hm : ∀ e, e ∈ cache ↔ e ∈ v.cache) : Inv cfg g ⟨v.clock, cache, v.phases⟩ := by
  refine ⟨hs, h.alone, ?_, ?_, h.waiting⟩
  · intro j k b hj e he
    exact h.absent j k b hj e ((hm e).mp he)
  intro p hp
  refine (h.guarded p hp).imp_right (Or.imp_left ?_)
  rintro ⟨e, he, hen⟩
  exact ⟨e, (hm e).mpr he, hen⟩

lemma Inv.over (ha : ∀ (j : ℕ) b, v.phases[j]? ≠ some (some (k, b)))
    (hm : ∀ e ∈ v.cache, e.key ≠ k) (hp : p ∈ g) (hk : p.key = k) : p.Over cfg v.clock := by
  rcases h.guarded p hp with ho | ⟨e, he, hek, -⟩ | hph
  · exact ho
  · exact absurd (hek.trans hk) (hm e he)
  · exact absurd (hk ▸ hph) (ha _ true)

lemma Inv.entered (hph : v.phases[i]? = some none)
    (hal : ∀ (j : ℕ) b, v.phases[j]? ≠ some (some (k, b))) (hm : ∀ e ∈ v.cache, e.key ≠ k) :
    Inv cfg g ⟨v.clock, v.cache, v.phases.set i (some (k, false))⟩ := by
  refine ⟨h.single, ?_, ?_, ?_, ?_⟩
  · intro a b k' x y ha hb
    rcases getElem?_set_some ha with ⟨hai, heq⟩ | ⟨-, ha'⟩ <;>
      rcases getElem?_set_some hb with ⟨hbi, heq'⟩ | ⟨-, hb'⟩
    · rw [hai, hbi]
    · cases heq
      exact absurd hb' (hal b y)
    · cases heq'
      exact absurd ha' (hal a x)
    · exact h.alone a b k' x y ha' hb'
  · intro j k' b hj
    rcases getElem?_set_some hj with ⟨-, heq⟩ | ⟨-, hj⟩
    · cases heq
      exact hm
    · exact h.absent j k' b hj
  · intro p hp
    refine (h.guarded p hp).imp_right (Or.imp_right ?_)
    intro hp
    have hne : i ≠ p.call := by
      intro hi
      rw [← hi, hph] at hp
      cases hp
    rw [getElem?_set_ne hne]
    exact hp
  · intro j k' hj p hp hk
    rcases getElem?_set_some hj with ⟨-, heq⟩ | ⟨-, hj⟩
    · cases heq
      exact h.over hal hm hp hk
    · exact h.waiting j k' hj p hp hk

lemma Inv.sent (hc : v.clock ≤ o.clock) (hps : v.phases[i]? = some (some (k, false)))
    (he : o.executed = none ∨ o.executed = some k) (hs : o.stored = none) :
    Inv cfg (guard g i o) ⟨o.clock, v.cache, v.phases.set i (some (k, true))⟩ := by
  have hlt : i < v.phases.length := (List.getElem?_eq_some_iff.mp hps).1
  have hph : ∀ (j : ℕ) k' b, (v.phases.set i (some (k, true)))[j]? = some (some (k', b)) →
      ∃ b', v.phases[j]? = some (some (k', b')) := by
    intro j k' b hj
    rcases getElem?_set_some hj with ⟨rfl, heq⟩ | ⟨-, hj⟩
    · cases heq
      exact ⟨false, hps⟩
    · exact ⟨b, hj⟩
  have hg : ∀ p ∈ guard g i o, p.key = k ∧ p.call = i ∨ p ∈ g := by
    intro p hp
    rcases mem_guard hp with ⟨hnew, hr⟩ | ⟨p', hold, -, rfl⟩
    · rcases he with hn | hsm
      · cases hn.symm.trans hnew
      · rw [hsm] at hnew
        exact .inl ⟨(some.inj hnew).symm, hr⟩
    · rw [Run.after_of_none hs]
      exact .inr hold
  refine ⟨h.single, ?_, ?_, ?_, ?_⟩
  · intro a b k' x y ha hb
    obtain ⟨x', ha⟩ := hph a k' x ha
    obtain ⟨y', hb⟩ := hph b k' y hb
    exact h.alone a b k' x' y' ha hb
  · intro j k' b hj
    obtain ⟨b', hj⟩ := hph j k' b hj
    exact h.absent j k' b' hj
  · intro p hp
    rcases hg p hp with ⟨hk, hcl⟩ | hold
    · refine .inr (.inr ?_)
      rw [hcl, getElem?_set_self hlt, hk]
    rcases h.guarded p hold with ho | hen | hp
    · exact .inl (ho.mono hc)
    · exact .inr (.inl hen)
    · have hne : i ≠ p.call := by
        intro hi
        rw [← hi, hps] at hp
        cases hp
      refine .inr (.inr ?_)
      rw [getElem?_set_ne hne]
      exact hp
  · intro j k' hj p hp hk
    rcases getElem?_set_some hj with ⟨-, heq⟩ | ⟨hne, hj⟩
    · cases heq
    rcases hg p hp with ⟨hk', -⟩ | hold
    · rw [← hk, hk'] at hj
      exact absurd (h.alone j i k false false hj hps) hne
    · exact (h.waiting j k' hj p hold hk).mono hc

lemma Inv.stored (hc : v.clock ≤ o.clock) (hps : v.phases[i]? = some (some (k, true))) (hec : o.executed = none)
    (hs : o.stored = some (k, q, r))
    {cache : Cache} (hch : cache = store (purge o.clock v.cache) ⟨k, o.clock + cfg.idempotencyTtl, q, r⟩)
    (hd : o.dropped = (expired o.clock v.cache).map (·, .expired) ++
      (excess cfg.idempotencyMaxEntries cache).map (·, .evicted)) :
    Inv cfg (guard g i o) ⟨o.clock, trim cfg.idempotencyMaxEntries cache, v.phases.set i none⟩ := by
  have hn := mem_trim_store (purge o.clock v.cache) ⟨k, o.clock + cfg.idempotencyTtl, q, r⟩ cfg.maxEntries_pos
  rw [← hch] at hn
  have hph : ∀ (j : ℕ) x, (v.phases.set i none)[j]? = some (some x) → j ≠ i ∧ v.phases[j]? = some (some x) := by
    intro j x hj
    rcases getElem?_set_some hj with ⟨-, heq⟩ | hj
    · cases heq
    · exact hj
  have hls : ∀ e ∈ v.cache, e ∈ trim cfg.idempotencyMaxEntries cache ∨ o.frees e.key ∨ e.expiresAt ≤ o.clock := by
    intro e he
    rcases purge_or_expired o.clock he with hin | ⟨-, hpt⟩
    · have hst : e ∈ cache := hch ▸ mem_store.mpr (.inr ⟨hin, h.absent i k true hps e he⟩)
      rcases trim_or_excess cfg.idempotencyMaxEntries hst with ht | hes
      · exact .inl ht
      refine .inr (.inl (.inl ?_))
      rw [hd]
      exact mem_append_right _ (mem_map_of_mem hes)
    · exact .inr (.inr hpt)
  refine ⟨?_, ?_, ?_, ?_, ?_⟩
  · rw [hch]
    exact ((h.single.purge _).store _).trim _
  · intro a b k' x y ha hb
    exact h.alone a b k' x y (hph a _ ha).2 (hph b _ hb).2
  · intro j k' b hj e he
    obtain ⟨hne, hj⟩ := hph j _ hj
    have he := mem_of_trim he
    rw [hch] at he
    rcases mem_store.mp he with rfl | ⟨he, -⟩
    · rintro rfl
      exact hne (h.alone j i _ b true hj hps)
    · exact h.absent j k' b hj e (mem_purge.mp he).1
  · intro p' hp'
    obtain ⟨p, hp, hf, rfl⟩ := guard_of_unexecuted hec hp'
    by_cases hm : k = p.key ∧ i = p.call
    · exact .inr (.inl ⟨_, hn, hm.1, o.clock, Run.after_of_call hs hm, rfl⟩)
    rw [Run.after_of_other hs hm]
    rcases h.guarded p hp with ho | ⟨e, he, hk, t, hr, ht⟩ | hcl
    · exact .inl (ho.mono hc)
    · rcases hls e he with hin | hfr | hpt
      · exact .inr (.inl ⟨e, hin, hk, t, hr, ht⟩)
      · exact absurd (hk ▸ hfr) hf
      · exact .inl ⟨_, hr, ht.trans_le hpt⟩
    · have hne : i ≠ p.call := by
        intro hi
        rw [← hi, hps] at hcl
        cases hcl
        exact hm ⟨rfl, hi⟩
      refine .inr (.inr ?_)
      rw [getElem?_set_ne hne]
      exact hcl
  · intro j k' hj p' hp' hk
    obtain ⟨hne, hj⟩ := hph j _ hj
    obtain ⟨p, hp, -, rfl⟩ := guard_of_unexecuted hec hp'
    by_cases hm : k = p.key ∧ i = p.call
    · have hkk : k = k' := hm.1.trans hk
      exact absurd (h.alone j i k false true (hkk ▸ hj) hps) hne
    rw [Run.after_of_other hs hm] at hk ⊢
    exact (h.waiting j k' hj p hp hk).mono hc

end

lemma Good.quiet (he : o.executed = none) (hl : o.looked = none) : Good cfg g o where
  spaced k hk := by
    cases he.symm.trans hk
  replayed k q hk := by
    cases hl.symm.trans hk

lemma Good.hit {prior : Retained Key (String × Response)} (h : Inv cfg g v)
    (hcl : v.clock ≤ o.clock) (hl : o.looked = some (k, q)) (hec : o.executed = none)
    (hh : find (purge o.clock v.cache) k = some prior)
    (ha : prior.value.1 = q → o.answered = some prior.value.2) : Good cfg g o := by
  obtain ⟨hprior, hpr⟩ := find_some hh
  have hc := (mem_purge.mp hprior).1
  refine ⟨?_, ?_⟩
  · intro k' hk'
    cases hec.symm.trans hk'
  intro k' q' hk' p hp hpk
  cases hl.symm.trans hk'
  rcases h.guarded p hp with ho | ⟨e, he, hk, t, hr, -⟩ | hph
  · exact .inl (ho.mono hcl)
  · have heq := h.single.eq hc he (by rw [hk, hpk, hpr])
    rw [← heq] at hr
    exact .inr ⟨t, _, _, hr, ha⟩
  · exact absurd (hpr.trans hpk.symm) (h.absent _ _ _ hph prior hc)

lemma Inv.effect (h : Inv cfg g v) (hef : Effect cfg v i o v') : Inv cfg (guard g i o) v' ∧ Good cfg g o := by
  cases hef with
  | idle hc hst hph =>
    obtain ⟨hl, hec, hs, -⟩ := hst
    refine ⟨h.shrink hc hec hs h.single ?_ ?_ (fun _ he => he) (fun _ he => .inl he),
      .quiet hec hl⟩
    · intro j x hj
      rcases hph with rfl | rfl
      · exact hj
      · exact getElem?_of_concat_none hj
    · intro j k hj
      rcases hph with rfl | rfl
      · exact hj
      · rw [List.getElem?_append_left (List.getElem?_eq_some_iff.mp hj).1]
        exact hj
  | enter hc hps ha hl hec hs hd hm =>
    have hm := find_none.mp hm
    have hpr := h.purged (i := i) hc hec hs
    have ha : ∀ (j : ℕ) b, v.phases[j]? ≠ some (some (_, b)) := fun j b hj =>
      ha _ (mem_of_getElem? hj) _ rfl rfl
    refine ⟨hpr.entered hps ha hm, ?_, ?_⟩
    · intro k hk
      cases hec.symm.trans hk
    intro k q hk p hp hpk
    cases hl.symm.trans hk
    have hf : ¬o.frees p.key := by simp [frees, hd]
    have hg : p.after i o ∈ guard g i o := mem_guard_of_mem hp hf
    rw [Run.after_of_none hs] at hg
    exact .inl (hpr.over ha hm hg hpk)
  | answer hc hl hec hs hd hh han hch =>
    have hpr := h.purged (i := i) hc hec hs
    refine ⟨?_, .hit h hc hl hec hh han⟩
    rcases hch with rfl | rfl
    · exact hpr
    · exact hpr.congr (hpr.single.touch _) fun _ => mem_touch hpr.single
  | sent hc hps hec hl hs hd =>
    refine ⟨h.sent hc hps hec hs, ?_, ?_⟩
    · intro k hk p hp hpk
      rcases hec with hn | hsm
      · cases hn.symm.trans hk
      cases hsm.symm.trans hk
      exact (h.waiting _ _ hps p hp hpk).mono hc
    · intro k q hk
      cases hl.symm.trans hk
  | left hc hst hps =>
    obtain ⟨hl, hec, hs, -⟩ := hst
    refine ⟨h.shrink hc hec hs h.single ?_ ?_ (fun _ he => he) (fun _ he => .inl he),
      .quiet hec hl⟩
    · intro j x hj
      rcases getElem?_set_some hj with ⟨-, heq⟩ | ⟨-, hj⟩
      · cases heq
      · exact hj
    · intro j k hj
      rw [getElem?_set_ne]
      · exact hj
      rintro rfl
      cases hps.symm.trans hj
  | stored hc hps hl hec hs hch hd =>
    exact ⟨h.stored hc hps hec hs hch hd, .quiet hec hl⟩
  | released hc hl hec hs hd =>
    refine ⟨h.shrink hc hec hs ?_ (fun _ _ hj => hj) (fun _ _ hj => hj) ?_ ?_,
      .quiet hec hl⟩
    · exact (filter_sublist.map _).nodup h.single
    · intro e he
      exact mem_of_mem_filter he
    · intro e he
      rename_i own
      cases hown : own e with
      | false => exact .inl (mem_filter.mpr ⟨he, by rw [hown]; rfl⟩)
      | true =>
        refine .inr (.inl (.inr ?_))
        rw [hd]
        exact mem_map.mpr ⟨e, mem_filter.mpr ⟨he, hown⟩, rfl⟩

abbrev Log := List (Event × Outcome)

def guards (h : Log) : List Run := h.foldl (fun g x => guard g x.1.caller x.2) []

variable {x : Event × Outcome}

lemma guards_concat (h : Log) (x : Event × Outcome) : guards (h ++ [x]) = guard (guards h) x.1.caller x.2 := by
  unfold guards
  rw [foldl_append]
  rfl

lemma guards_of_executed (before mid : Log) (hx : x.2.executed = some k) (hk : ∀ z ∈ mid, ¬z.2.frees k) :
    ∃ p ∈ guards (before ++ x :: mid), p.key = k ∧ p.call = x.1.caller ∧ ∀ w ∈ p.stored,
      ∃ z ∈ mid, z.1.caller = x.1.caller ∧ z.2.stored = some (k, w.2) ∧ z.2.clock = w.1 := by
  induction mid using reverseRecOn with
  | nil =>
    rw [guards_concat]
    refine ⟨_, mem_guard_of_executed hx, rfl, rfl, ?_⟩
    intro w hw
    cases hw
  | append_singleton mid z ih =>
    obtain ⟨p, hp, hkey, hc, hr⟩ := ih fun z hz => hk z (mem_append_left _ hz)
    have hz : z ∈ mid ++ [z] := mem_append_right _ mem_cons_self
    rw [← cons_append, ← append_assoc, guards_concat]
    refine ⟨p.after z.1.caller z.2, mem_guard_of_mem hp (hkey ▸ hk z hz), hkey, hc, ?_⟩
    intro w hw
    rcases Run.mem_stored_after hw with hold | ⟨hs, ht, hcl⟩
    · obtain ⟨z', hz', hs⟩ := hr w hold
      exact ⟨z', mem_append_left _ hz', hs⟩
    · exact ⟨z, hz, hcl.trans hc, hkey ▸ hs, ht⟩

lemma Inv.start (pool : ℕ) : Inv cfg [] (start pool).view where
  single := nodup_nil
  alone i j k b b' hi := by cases hi
  absent i k b hi := by cases hi
  guarded p hp := by cases hp
  waiting i k hi := by cases hi

lemma inv_run {pool : ℕ} {es : List Event} (ha : Along (step cfg) Alone (.start pool) es) :
    Inv cfg (guards (trace (step cfg) (.start pool) es)) (after (step cfg) (.start pool) es).view := by
  refine history_along (I := fun h s => Inv cfg (guards h) s.view) (Inv.start pool) ?_ es ha
  intro h s e hi ha
  rw [guards_concat]
  exact (hi.effect (step_effect ha)).1

/-- The step is the lookup of an `invoke` that has passed its lease check. -/
def LeaseChecked (s : Supervisor) (e : Event) (body : Body) : Prop := ∃ slot, e.call s = some (.looking body slot)

lemma LeaseChecked.looked (h : LeaseChecked s e body) :
    (step cfg s e).1.looked = some (body.key, cfg.canonical body) := by
  obtain ⟨slot, h⟩ := h
  cases e with
  | resume i turn =>
    change s.calls[i]? = _ at h
    simp only [step, resume, h, lookup]
    split
    · rfl
    · split_ifs <;> rfl
  | _ => cases h

def repeated : List Event :=
  bound ++ [.invoke (.sample "i") (.sample 1)] ++ resumed 1 7 .smooth ++
    [.invoke (.sample "i") (.sample 1)] ++ resumed 2 2 .smooth

def Outcome.ran : Outcome := { quiet 0 with executed := some (Body.sample "i").key }

end LeafWeb.Runtime
