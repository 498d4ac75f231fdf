import LeafWeb.Queue.Permits

namespace LeafWeb.Queue

open Lib Transition Rotation List Gate Moment

def Moment.tenant (m : Moment) : Option String := m.granted.bind fun i => m.gate.tickets[i]?.map Ticket.tenant

variable {g g' : Gate} {l : Option ℕ}

lemma Change.move (h : g.Sound) (hc : Change g l g') : Move g.queue (tenant ⟨l, g'⟩) g'.queue := by
  cases hc with
  | registered key => exact .arrive _ (h.clean key)
  | granted hf hsr hd ht =>
    rename_i k i n queue t
    obtain ⟨⟨u, hu, hk, -⟩, -⟩ := h.of_served hsr
    obtain rfl : t = u := Option.mem_unique ht hu
    have htn : tenant ⟨some i, { g with
        free := n
        queue := queue
        tickets := g.tickets.set i { t with sem := true, granted := true } }⟩ = some k := by
      simp [tenant, getElem?_set_of_some ht, hk]
    rw [htn]
    exact .serve hsr
  | entered | acquired | dispatched => exact .same _
  | handedBack phase ht hg hs hp =>
    simp only [setTicket, releaseSlot_queue]
    exact .same _
  | withdrew ht hp hg => exact .leave ((h.waiting _ _).mpr ⟨_, ht, rfl, hg, hp⟩)
  | released hc =>
    simp only [setCaller, releaseSlot_queue]
    exact .same _

def turns (ms : List Moment) : List (Option String × Rotation String ℕ) := ms.map fun m => (m.tenant, m.gate.queue)

lemma run_turns {ms : List Moment} (h : g.Sound) (hc : Changes g ms g') : Run g.queue (turns ms) := by
  induction ms generalizing g with
  | nil => trivial
  | cons m ms ih => exact ⟨hc.1.move h, ih (h.change hc.1) hc.2⟩

def grantsOf (k : String) (ms : List Moment) : List ℕ :=
  ms.filterMap fun m => if m.tenant = some k then m.granted else none

def registeredOf (k : String) (tickets : List Ticket) : List ℕ :=
  (range tickets.length).filter fun i => tickets[i]?.any fun t => t.tenant = k

def timedOut (tickets : List Ticket) (i : ℕ) : Bool := tickets[i]?.any fun t => t.phase = .timedOut

def lineOf (k : String) (tickets : List Ticket) : List ℕ :=
  (range tickets.length).filter fun i => tickets[i]?.any fun t =>
    t.tenant = k ∧ (t.granted = true ∨ t.phase ≠ .timedOut)

variable {k : String} {tickets : List Ticket} {i : ℕ} {t : Ticket}

lemma lineOf_nodup (k : String) (tickets : List Ticket) : (lineOf k tickets).Nodup := nodup_range.filter _

lemma lineOf_append (key : String) :
    lineOf k (tickets ++ [⟨key, false, false, .blocked⟩]) =
      lineOf k tickets ++ (if key = k then [tickets.length] else []) := by
  simp only [lineOf, length_append, length_singleton, range_succ,
    filter_append, getElem?_concat_length, filter_singleton]
  congr 1
  · refine filter_congr fun j hj => ?_
    rw [getElem?_append_left (mem_range.mp hj)]
  · by_cases hk : key = k <;> simp [hk]

lemma lineOf_set (ht : tickets[i]? = some t) (t' : Ticket) (hk : t'.tenant = t.tenant)
    (hs : (t'.granted = true ∨ t'.phase ≠ .timedOut) ↔ (t.granted = true ∨ t.phase ≠ .timedOut)) :
    lineOf k (tickets.set i t') = lineOf k tickets := by
  simp only [lineOf, length_set]
  refine filter_congr fun j _ => ?_
  rw [getElem?_set_of_some ht]
  by_cases hj : j = i
  · subst hj
    simp only [if_true, ht, Option.any_some, hk, hs]
  · rw [if_neg hj]

lemma lineOf_drop (ht : tickets[i]? = some t) (t' : Ticket) (hg : t'.granted = false) (hp : t'.phase = .timedOut) :
    lineOf k (tickets.set i t') = (lineOf k tickets).erase i := by
  rw [(lineOf_nodup k tickets).erase_eq_filter]
  simp only [lineOf, length_set, filter_filter]
  refine filter_congr fun j _ => ?_
  rw [getElem?_set_of_some ht]
  by_cases hj : j = i
  · simp [hj, hg, hp]
  · simp [hj]

lemma Change.in_line {done : List ℕ} (h : g.Sound)
    (hc : Change g l g') (hp : done ++ g.queue.waiting k = lineOf k g.tickets) :
    (done ++ if tenant ⟨l, g'⟩ = some k then l.toList else []) ++ g'.queue.waiting k =
      lineOf k g'.tickets := by
  have hn : (done ++ if tenant ⟨none, g'⟩ = some k then (none : Option ℕ).toList else []) = done := by
    simp
  cases hc with
  | registered key =>
    rw [hn, register, lineOf_append, ← hp, waiting_enqueue]
    by_cases hk : k = key
    · simp [hk]
    · simp [hk, Ne.symm hk]
  | granted hf hs hdr ht =>
    rename_i k' i n queue t
    obtain ⟨⟨u, hu, htk, hug, hup⟩, -⟩ := h.of_served hs
    obtain rfl : t = u := Option.mem_unique ht hu
    rw [lineOf_set ht { t with sem := true, granted := true } rfl (by simp [hup]), ← hp]
    by_cases hk : k' = k
    · subst hk
      simp [tenant, getElem?_set_of_some ht, htk, hs.front]
    · simp [tenant, getElem?_set_of_some ht, htk, hk, hs.others k (Ne.symm hk)]
  | entered ht hph hg =>
    rename_i i t
    rw [hn, setTicket, lineOf_set ht { t with phase := .inside } rfl (by simp [hg])]
    exact hp
  | handedBack phase ht hg hsem hph =>
    rename_i i t
    rw [hn, setTicket, releaseSlot_tickets, releaseSlot_queue,
      lineOf_set ht { t with sem := false, phase := phase } rfl (by simp [hg])]
    exact hp
  | withdrew ht hph hg =>
    rename_i i t
    have hi : i ∈ g.queue.waiting t.tenant := (h.waiting _ i).mpr ⟨t, ht, rfl, hg, hph⟩
    rw [hn, setTicket, lineOf_drop ht { t with phase := .timedOut } hg rfl, ← hp, waiting_withdraw]
    by_cases hk : k = t.tenant
    · have hnd : (done ++ g.queue.waiting k).Nodup := by
        rw [hp]
        exact lineOf_nodup k g.tickets
      have hdn : i ∉ done := fun hd => disjoint_of_nodup_append hnd hd (hk ▸ hi)
      rw [if_pos hk, erase_append_right _ hdn, hk]
    · have hl : i ∉ done ++ g.queue.waiting k := by
        rw [hp]
        simp [lineOf, ht, Ne.symm hk]
      rw [if_neg hk, erase_of_not_mem hl]
  | acquired | dispatched =>
    rw [hn]
    exact hp
  | released hc =>
    rw [hn, setCaller, releaseSlot_tickets, releaseSlot_queue]
    exact hp

lemma grants_in_line (n : ℕ) (events : List GateEvent) (k : String) :
    grantsOf k (moments n events) ++
        (after gateStep (.idle n) events).queue.waiting k =
      lineOf k (after gateStep (.idle n) events).tickets := by
  refine run_induction (P := fun ms g => grantsOf k ms ++ g.queue.waiting k = lineOf k g.tickets) rfl ?_ events
  intro ms g m hs hp hc
  have ha : grantsOf k (ms ++ [m]) = grantsOf k ms ++ (if m.tenant = some k then m.granted.toList else []) := by
    rw [grantsOf, filterMap_append]
    congr 1
    by_cases hk : m.tenant = some k
    · cases hg : m.granted <;> simp [hk, hg]
    · simp [hk]
  rw [ha]
  exact hc.in_line hs hp

lemma lineOf_filter (k : String) (tickets : List Ticket) :
    (lineOf k tickets).filter (fun i => !timedOut tickets i) =
      (registeredOf k tickets).filter (fun i => !timedOut tickets i) := by
  simp only [lineOf, registeredOf, filter_filter]
  refine filter_congr fun i _ => ?_
  simp only [timedOut]
  cases tickets[i]? with
  | none => rfl
  | some t => by_cases hp : t.phase = .timedOut <;> simp [hp]

theorem gate_round_robin (n : ℕ) (events : List GateEvent) :
    (∀ (a b : String) (ms₁ ms₂ ms₃ : List Moment) (m₁ m₂ : Moment),
      moments n events = ms₁ ++ m₁ :: (ms₂ ++ m₂ :: ms₃) →
      m₁.tenant = some a → m₂.tenant = some a → b ≠ a →
      (∀ m ∈ m₁ :: ms₂, m.gate.queue.waiting b ≠ []) →
      ∃ m ∈ ms₂, m.tenant = some b) ∧
    ∀ k : String,
      let tickets := (after gateStep (.idle n) events).tickets
      (grantsOf k (moments n events)).Pairwise (· < ·) ∧
      (grantsOf k (moments n events)).filter (fun i => !timedOut tickets i) <+:
        (registeredOf k tickets).filter (fun i => !timedOut tickets i) := by
  refine ⟨?_, ?_⟩
  · intro a b ms₁ ms₂ ms₃ m₁ m₂ hms h₁ h₂ hne hw
    have hr := run_turns (sound_idle n) (run_changes n events).1
    rw [hms] at hr
    simp only [turns, map_append, map_cons, h₁, h₂] at hr
    have hb : ∀ m ∈ (some a, m₁.gate.queue) :: turns ms₂, m.2.waiting b ≠ [] := by
      intro m hm
      rcases mem_cons.mp hm with rfl | hm
      · exact hw m₁ mem_cons_self
      · obtain ⟨m', hm', rfl⟩ := mem_map.mp hm
        exact hw m' (mem_cons_of_mem m₁ hm')
    obtain ⟨m, hm, hsr⟩ := exact_empty.fair hr hne hb
    obtain ⟨m', hm', rfl⟩ := mem_map.mp hm
    exact ⟨m', hm', hsr⟩
  · intro k tickets
    have hl := grants_in_line n events k
    refine ⟨?_, ?_⟩
    · have hs : (lineOf k tickets).Pairwise (· < ·) := pairwise_lt_range.filter _
      rw [← hl] at hs
      exact (pairwise_append.mp hs).1
    · rw [← lineOf_filter, ← hl, filter_append]
      exact prefix_append _ _

def twoTenants : List GateEvent :=
  [.register (some "A"), .register (some "A"), .register (some "B"), .register (some "B"),
    .register (some "A"), .enter 0, .exit 0, .enter 1, .exit 1, .enter 2, .exit 2]

theorem gate_round_robin_two_tenants :
    (((moments 1 twoTenants).drop 9).take 5).any (fun m => m.tenant = some "B") = true := by
  obtain ⟨m, hm, hb⟩ := (gate_round_robin 1 twoTenants).1 "A" "B" ((moments 1 twoTenants).take 8)
    (((moments 1 twoTenants).drop 9).take 5) ((moments 1 twoTenants).drop 15)
    ((moments 1 twoTenants).get ⟨8, by decide +kernel⟩)
    ((moments 1 twoTenants).get ⟨14, by decide +kernel⟩) (by rfl) (by decide +kernel)
    (by decide +kernel) (by decide) (by decide +kernel)
  exact any_eq_true.mpr ⟨m, hm, by simpa using hb⟩

end LeafWeb.Queue
