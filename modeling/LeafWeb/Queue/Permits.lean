import LeafWeb.Lib.Slots
import LeafWeb.Queue.Gate

namespace LeafWeb.Queue

open Lib Transition Rotation List Gate Option

inductive Change (g : Gate) : Option ℕ → Gate → Prop
  | registered (key : String) : Change g none (g.register key)
  | granted {k : String} {i n : ℕ} {queue : Rotation String ℕ} {t : Ticket}
      (hfree : g.free = n + 1) (hserved : g.queue.Served k i queue)
      (hdrained : ∀ k', queue.Drained k' → g.queue.Drained k') (ht : g.tickets[i]? = some t) :
      Change g (some i)
        { g with
          free := n
          queue := queue
          tickets := g.tickets.set i { t with sem := true, granted := true } }
  | entered {i : ℕ} {t : Ticket} (ht : g.tickets[i]? = some t) (hp : t.phase = .blocked)
      (hg : t.granted = true) : Change g none (g.setTicket i { t with phase := .inside })
  | handedBack {i : ℕ} {t : Ticket} (phase : Phase) (ht : g.tickets[i]? = some t)
      (hg : t.granted = true) (hs : t.sem = true) (hp : phase = .timedOut ∨ phase = .exited) :
      Change g none (g.releaseSlot.setTicket i { t with sem := false, phase := phase })
  | withdrew {i : ℕ} {t : Ticket} (ht : g.tickets[i]? = some t) (hp : t.phase = .blocked)
      (hg : t.granted = false) :
      Change g none { g.setTicket i { t with phase := .timedOut } with
        queue := g.queue.withdraw t.tenant i }
  | acquired {n : ℕ} (hfree : g.free = n + 1) :
      Change g none { g with free := n, callers := g.callers ++ [.holding] }
  | released {c : ℕ} (hc : g.callers[c]? = some .holding) :
      Change g none (g.releaseSlot.setCaller c .released)
  | dispatched {c : ℕ} (hc : g.callers[c]? = some .released) :
      Change g none (g.setCaller c .left)

def Changes (g : Gate) : List Moment → Gate → Prop
  | [], g' => g' = g
  | m :: ms, g' => Change g m.granted m.gate ∧ Changes m.gate ms g'

variable {g g' g'' : Gate} {ms ms' : List Moment} {l : Option ℕ} {n j i : ℕ}

lemma changes_append (h : Changes g ms g') (h' : Changes g' ms' g'') : Changes g (ms ++ ms') g'' := by
  induction ms generalizing g with
  | nil => cases h; exact h'
  | cons m ms ih => exact ⟨h.1, ih h.2⟩

namespace Gate

def held (g : Gate) : ℕ := g.callers.count .holding

def owned (g : Gate) : ℕ := g.tickets.countP Ticket.sem

def Waits (g : Gate) (k : String) (i : ℕ) : Prop :=
  ∃ t, g.tickets[i]? = some t ∧ t.tenant = k ∧ t.granted = false ∧ t.phase = .blocked

structure Sound (g : Gate) : Prop where
  permits : g.free + g.held + g.owned = g.ceiling
  exact : g.queue.Exact
  clean : ∀ k, ¬ g.queue.Drained k
  waiting : ∀ k i, i ∈ g.queue.waiting k ↔ g.Waits k i
  nodup : ∀ k, (g.queue.waiting k).Nodup
  sem : ∀ t ∈ g.tickets, t.sem = true ↔ t.granted = true ∧ (t.phase = .blocked ∨ t.phase = .inside)
  entered : ∀ t ∈ g.tickets, t.phase = .inside ∨ t.phase = .exited → t.granted = true

lemma sound_idle (n : ℕ) : (idle n).Sound where
  permits := by simp [idle, held, owned]
  exact := exact_empty
  clean k := by simp [idle, empty, Drained]
  waiting k i := by simp [idle, Waits, empty, waiting]
  nodup k := by simp [idle, empty, waiting]
  sem t ht := by simp [idle] at ht
  entered t ht := by simp [idle] at ht

variable {i : ℕ} {t : Ticket} {queue : Rotation String ℕ}

lemma Sound.not_waiting (h : g.Sound) (ht : g.tickets[i]? = some t) (hg : t.granted = true)
    (k : String) (j : ℕ) : j ∈ g.queue.waiting k ↔ j ∈ g.queue.waiting k ∧ j ≠ i := by
  refine ⟨fun hj => ⟨hj, ?_⟩, fun hj => hj.1⟩
  rintro rfl
  obtain ⟨u, hu, -, hug, -⟩ := (h.waiting k j).mp hj
  cases ht.symm.trans hu
  simp [hg] at hug

variable {k : String}

section

variable (h : g.Sound)
include h

lemma Sound.of_key {k' : String} (hi : i ∈ g.queue.waiting k) (hk : k' ≠ k) (j : ℕ) :
    j ∈ g.queue.waiting k' ↔ j ∈ g.queue.waiting k' ∧ j ≠ i := by
  refine ⟨fun hj => ⟨hj, ?_⟩, fun hj => hj.1⟩
  rintro rfl
  obtain ⟨u, hu, hku, -⟩ := (h.waiting k' j).mp hj
  obtain ⟨v, hv, hkv, -⟩ := (h.waiting k j).mp hi
  cases hu.symm.trans hv
  exact hk (hku.symm.trans hkv)

lemma Sound.of_served (hs : g.queue.Served k i queue) :
    (∃ u, g.tickets[i]? = some u ∧ u.tenant = k ∧ u.granted = false ∧ u.phase = .blocked) ∧
    ∀ k' j, j ∈ queue.waiting k' ↔ j ∈ g.queue.waiting k' ∧ j ≠ i := by
  have hf := hs.front
  have hi : i ∈ g.queue.waiting k := by simp [hf]
  refine ⟨(h.waiting k i).mp hi, fun k' j => ?_⟩
  by_cases hk : k' = k
  · subst hk
    have hnd := h.nodup k'
    rw [hf, nodup_cons] at hnd
    rw [hf, mem_cons]
    constructor
    · intro hj
      exact ⟨.inr hj, fun he => hnd.1 (he ▸ hj)⟩
    rintro ⟨rfl | hj, hne⟩
    · exact absurd rfl hne
    · exact hj
  · rw [hs.others k' hk]
    exact h.of_key hi hk j

lemma Sound.of_withdraw (k : String) (hi : i ∈ g.queue.waiting k) (k' : String) (j : ℕ) :
    j ∈ (g.queue.withdraw k i).waiting k' ↔ j ∈ g.queue.waiting k' ∧ j ≠ i := by
  rw [waiting_withdraw]
  by_cases hk : k' = k
  · subst hk
    rw [if_pos rfl, (h.nodup k').mem_erase_iff, and_comm]
  · rw [if_neg hk]
    exact h.of_key hi hk j

lemma Sound.owned_pos (ht : g.tickets[i]? = some t) (hs : t.sem = true) : g.free < g.ceiling := by
  have hp : 0 < g.owned := countP_pos_iff.mpr ⟨t, mem_of_getElem? ht, hs⟩
  have := h.permits
  omega

end

variable {c : ℕ}

lemma held_setCaller {p : AdmitPhase} (p' : AdmitPhase) (hc : g.callers[c]? = some p) :
    (g.setCaller c p').held + (if p = .holding then 1 else 0) = g.held + (if p' = .holding then 1 else 0) := by
  have h := countP_set_add (p := (· == AdmitPhase.holding)) (b := p') hc
  simpa [held, setCaller, count] using h

lemma Sound.held_pos (h : g.Sound) (hc : g.callers[c]? = some .holding) : g.free < g.ceiling := by
  have hp : 0 < g.held := count_pos_iff.mpr (mem_of_getElem? hc)
  have := h.permits
  omega

@[simp] lemma releaseSlot_tickets (g : Gate) : g.releaseSlot.tickets = g.tickets := by
  unfold releaseSlot
  split_ifs <;> rfl

@[simp] lemma releaseSlot_queue (g : Gate) : g.releaseSlot.queue = g.queue := by
  unfold releaseSlot
  split_ifs <;> rfl

lemma releaseSlot_eq (hf : g.free < g.ceiling) : g.releaseSlot = { g with free := g.free + 1 } := if_pos hf

lemma Sound.waiting_lt (h : g.Sound) (hi : i ∈ g.queue.waiting k) : i < g.tickets.length := by
  obtain ⟨u, hu, -⟩ := (h.waiting k i).mp hi
  exact (List.getElem?_eq_some_iff.mp hu).1

lemma waits_register (key k : String) (j : ℕ) :
    (g.register key).Waits k j ↔ g.Waits k j ∨ (j = g.tickets.length ∧ k = key) := by
  simp only [Waits, register, getElem?_append]
  by_cases hj : j < g.tickets.length
  · simp [hj, hj.ne]
  rw [if_neg hj, getElem?_eq_none (not_lt.mp hj)]
  by_cases he : j = g.tickets.length
  · subst he
    simp only [Nat.sub_self, getElem?_cons_zero, some.injEq, exists_eq_left',
      reduceCtorEq, false_and, exists_false, false_or, true_and, and_true]
    exact eq_comm
  · have hd : j - g.tickets.length ≠ 0 := by omega
    simp [he, hd]

lemma Sound.registered (h : g.Sound) (key : String) : (g.register key).Sound where
  permits := by
    have hp := h.permits
    simp only [register, held, owned] at hp ⊢
    simpa using hp
  exact := (h.exact.enqueue_iff _).mpr (h.clean key)
  clean k := drained_enqueue _ _ _ (h.clean k)
  waiting k j := by
    rw [waits_register, ← h.waiting]
    simp only [register]
    by_cases hk : k = key
    all_goals simp [hk]
  nodup k := by
    simp only [register, waiting_enqueue]
    split_ifs with hk
    · have hlen : g.tickets.length ∉ g.queue.waiting key := fun hl => (h.waiting_lt hl).false
      exact (h.nodup key).append (nodup_singleton _) (by simpa using hlen)
    · exact h.nodup k
  sem t ht := by
    simp only [register, mem_append, mem_singleton] at ht
    rcases ht with ht | rfl
    · exact h.sem t ht
    · simp
  entered t ht := by
    simp only [register, mem_append, mem_singleton] at ht
    rcases ht with ht | rfl
    · exact h.entered t ht
    · simp

variable {l : Option ℕ}

/-- The ticket of request `i` stops waiting and its permit, if any, comes from the free ones. -/
lemma Sound.ticket (h : g.Sound) (ht : g.tickets[i]? = some t) (t' : Ticket) (free : ℕ)
    (hp : free + (if t'.sem then 1 else 0) = g.free + (if t.sem then 1 else 0))
    (hx : queue.Exact) (hd : ∀ k, ¬ queue.Drained k)
    (hq : ∀ k j, j ∈ queue.waiting k ↔ j ∈ g.queue.waiting k ∧ j ≠ i)
    (hl : ∀ k, (queue.waiting k).Sublist (g.queue.waiting k)) (hw : t'.granted = true ∨ t'.phase ≠ .blocked)
    (hs : t'.sem = true ↔ t'.granted = true ∧ (t'.phase = .blocked ∨ t'.phase = .inside))
    (he : t'.phase = .inside ∨ t'.phase = .exited → t'.granted = true) :
    { g with free, queue, tickets := g.tickets.set i t' }.Sound where
  permits := by
    have ho := countP_set_add (p := Ticket.sem) (b := t') ht
    have hg := h.permits
    simp only [owned, held] at hg ⊢
    omega
  exact := hx
  clean := hd
  waiting k j := by
    rw [hq, h.waiting, Waits, Waits, getElem?_set_of_some ht]
    by_cases hj : j = i
    · subst hj
      simp only [ne_eq, not_true_eq_false, and_false, if_true, some.injEq, exists_eq_left', false_iff, not_and]
      rintro - hg hp
      rcases hw with hg' | hp'
      · simp [hg'] at hg
      · exact hp' hp
    · simp only [hj, ne_eq, not_false_eq_true, and_true, if_false]
  nodup k := (h.nodup k).sublist (hl k)
  sem u hu := by
    rcases mem_or_eq_of_mem_set hu with hu | rfl
    · exact h.sem u hu
    · exact hs
  entered u hu := by
    rcases mem_or_eq_of_mem_set hu with hu | rfl
    · exact h.entered u hu
    · exact he

lemma Sound.caller (h : g.Sound) {free : ℕ} {callers : List AdmitPhase}
    (hp : free + callers.count .holding = g.free + g.held) : { g with free, callers }.Sound :=
  ⟨by simpa only [held, owned, hp] using h.permits, h.exact, h.clean, h.waiting, h.nodup, h.sem, h.entered⟩

lemma Sound.change (h : g.Sound) (hc : Change g l g') : g'.Sound := by
  cases hc with
  | registered key => exact h.registered key
  | @granted k i n queue t hf hsr hdr ht =>
    obtain ⟨⟨u, hu, -, hug, hup⟩, hm⟩ := h.of_served hsr
    obtain rfl : t = u := mem_unique ht hu
    have hsem : t.sem = false := by simpa [hug] using h.sem t (mem_of_getElem? ht)
    refine h.ticket ht { t with sem := true, granted := true } n (by simp [hsem, hf]) (hsr.exact h.exact)
      (fun k' hd => h.clean k' (hdr k' hd)) hm (fun k' => ?_) (.inl rfl) (by simp [hup]) fun _ => rfl
    by_cases hk : k' = k
    · subst hk
      rw [hsr.front]
      exact sublist_cons_self _ _
    · rw [hsr.others k' hk]
  | @entered i t ht hp hg =>
    have hsem : t.sem = true := (h.sem t (mem_of_getElem? ht)).mpr ⟨hg, .inl hp⟩
    exact h.ticket ht { t with phase := .inside } g.free rfl h.exact h.clean (h.not_waiting ht hg)
      (fun _ => .refl _) (.inl hg) (by simp [hsem, hg]) fun _ => hg
  | @handedBack i t phase ht hg hs hp =>
    have hne : phase ≠ .blocked ∧ phase ≠ .inside := by
      rcases hp with rfl | rfl <;> simp
    rw [releaseSlot_eq (h.owned_pos ht hs)]
    exact h.ticket ht { t with sem := false, phase := phase } (g.free + 1) (by simp [hs]) h.exact h.clean
      (h.not_waiting ht hg) (fun _ => .refl _) (.inl hg) (by simp [hne]) fun _ => hg
  | @withdrew i t ht hp hg =>
    have hi : i ∈ g.queue.waiting t.tenant := (h.waiting _ i).mpr ⟨t, ht, rfl, hg, hp⟩
    have hsem : t.sem = false := by simpa [hg] using h.sem t (mem_of_getElem? ht)
    refine h.ticket ht { t with phase := .timedOut } g.free rfl (h.exact.withdraw (ne_nil_of_mem hi))
      (fun k => drained_withdraw (h.clean k)) (h.of_withdraw _ hi) (fun k => ?_) (.inr (by simp)) (by simp [hsem])
      (by simp)
    rw [waiting_withdraw]
    split_ifs with hk
    · exact hk ▸ erase_sublist
    · exact .refl _
  | acquired hf => exact h.caller (by simp [held, hf]; omega)
  | released hc =>
    rw [releaseSlot_eq (h.held_pos hc)]
    have hh := held_setCaller .released hc
    exact h.caller (by simp [setCaller, held] at hh ⊢; omega)
  | dispatched hc =>
    have hh := held_setCaller .left hc
    exact h.caller (by simp [setCaller, held] at hh ⊢; omega)

end Gate

section

variable (h : g.Sound)
include h

lemma Gate.Sound.pick_grants (hr : g.queue.fifos.rows ≠ []) :
    ∃ k i queue t, g.queue.Served k i queue ∧ fairPickLocked g.queue = (some i, queue) ∧
      (∀ k', queue.Drained k' → g.queue.Drained k') ∧ g.tickets[i]? = some t := by
  rcases h.exact.pick true with ⟨hrn, -⟩ | ⟨k, i, queue, hs, hp, hd, -⟩
  · refine absurd (Dict.rows_eq_nil.mpr fun k => ?_) hr
    have hw : g.queue.waiting k = [] := by
      by_contra hw
      have hk := (h.exact.mem k).mpr hw
      rw [hrn] at hk
      cases hk
    cases hg : g.queue.fifos.get k with
    | none => rfl
    | some fifo =>
      rw [waiting_of_get hg] at hw
      subst hw
      exact absurd hg (h.clean k)
  · obtain ⟨⟨t, ht, -⟩, -⟩ := h.of_served hs
    exact ⟨k, i, queue, t, hs, hp, fun k' hk' => (hd k' hk').resolve_right (by simp), ht⟩

lemma fairDispatchLoop_succ (fuel : ℕ) :
    ((g.queue.fifos.rows = [] ∨ g.free = 0) ∧ fairDispatchLoop (fuel + 1) g = ([], g)) ∨
    ∃ i g', Change g (some i) g' ∧ g.free = g'.free + 1 ∧
      fairDispatchLoop (fuel + 1) g =
        (⟨some i, g'⟩ :: (fairDispatchLoop fuel g').1, (fairDispatchLoop fuel g').2) := by
  by_cases hr : g.queue.fifos.rows = []
  · exact .inl ⟨.inl hr, by simp [fairDispatchLoop, hr]⟩
  cases hf : g.free with
  | zero => exact .inl ⟨.inr rfl, by simp [fairDispatchLoop, acquire, hf]⟩
  | succ n =>
    obtain ⟨k, i, queue, t, hs, hp, hd, ht⟩ := h.pick_grants hr
    exact .inr ⟨i, _, .granted hf hs hd ht, rfl, by
      simp [fairDispatchLoop, hr, acquire, hf, hp, grant, ht, setTicket]⟩

lemma fairDispatchLoop_changes (fuel : ℕ) : Changes g (fairDispatchLoop fuel g).1 (fairDispatchLoop fuel g).2 := by
  induction fuel generalizing g with
  | zero => rfl
  | succ fuel ih =>
    rcases fairDispatchLoop_succ h fuel with ⟨-, he⟩ | ⟨i, g', hc, -, he⟩
    · rw [he]
      rfl
    · rw [he]
      exact ⟨hc, ih (h.change hc)⟩

lemma fairDispatchLoop_stops {fuel : ℕ} (hf : g.free < fuel) :
    (fairDispatchLoop fuel g).2.queue.fifos.rows = [] ∨ (fairDispatchLoop fuel g).2.free = 0 := by
  induction fuel generalizing g with
  | zero => omega
  | succ fuel ih =>
    rcases fairDispatchLoop_succ h fuel with ⟨hs, he⟩ | ⟨i, g', hc, hfr, he⟩
    · rwa [he]
    · rw [he]
      exact ih (h.change hc) (by omega)

lemma Gate.Sound.changes (hc : Changes g ms g') : g'.Sound := by
  induction ms generalizing g with
  | nil => rwa [hc]
  | cons m ms ih => exact ih (h.change hc.1) hc.2

end

def Gate.Settled (g : Gate) : Prop := .released ∉ g.callers → (∃ k, g.queue.waiting k ≠ []) → g.free = 0

lemma settled_thenDispatch (h : g.Sound) : g.thenDispatch.2.Settled := by
  rintro - ⟨k, hk⟩
  rcases fairDispatchLoop_stops h (Nat.lt_succ_self g.free) with hr | hf
  · have hn : g.thenDispatch.2.queue.fifos.get k = none := Dict.rows_eq_nil.mp hr k
    simp [waiting, hn] at hk
  · exact hf

lemma gateStep_changes (h : g.Sound) (hset : g.Settled) (e : GateEvent) :
    Changes g (gateStep g e).1 (gateStep g e).2 ∧ (gateStep g e).2.Settled := by
  have hsm : Changes g [] g ∧ g.Settled := ⟨rfl, hset⟩
  have hd : ∀ g', Change g none g' → Changes g g'.thenDispatch.1 g'.thenDispatch.2 ∧ g'.thenDispatch.2.Settled :=
    fun g' hc => ⟨⟨hc, fairDispatchLoop_changes (h.change hc) _⟩, settled_thenDispatch (h.change hc)⟩
  cases e with
  | register tenantId => exact hd _ (.registered _)
  | enter i =>
    simp only [gateStep]
    split
    next t ht =>
      split_ifs with hp
      · exact ⟨⟨.entered ht hp.1 hp.2, rfl⟩, hset⟩
      · exact hsm
    · exact hsm
  | timeout i =>
    simp only [gateStep]
    split
    next t ht =>
      split_ifs with hp
      · unfold expire
        split_ifs with hg
        · have hs := (h.sem t (mem_of_getElem? ht)).mpr ⟨hg, .inl hp⟩
          exact hd _ (.handedBack .timedOut ht hg hs (.inl rfl))
        refine ⟨⟨.withdrew ht hp (by simpa using hg), rfl⟩, ?_⟩
        rintro hr ⟨k, hk⟩
        refine hset hr ⟨k, fun hn => hk ?_⟩
        simp only [change, waiting_withdraw]
        split_ifs with hkt
        · rw [← hkt, hn, erase_nil]
        · exact hn
      · exact hsm
    · exact hsm
  | exit i =>
    simp only [gateStep]
    split
    next t ht =>
      split_ifs with hp
      · have hg := h.entered t (mem_of_getElem? ht) (.inl hp)
        have hs := (h.sem t (mem_of_getElem? ht)).mpr ⟨hg, .inr hp⟩
        exact hd _ (.handedBack .exited ht hg hs (.inr rfl))
      · exact hsm
    · exact hsm
  | acquire =>
    cases hf : g.free with
    | zero => simpa [gateStep, acquire, hf] using hsm
    | succ n =>
      simp only [gateStep, acquire, hf]
      refine ⟨⟨.acquired hf, rfl⟩, ?_⟩
      rintro hr hk
      have h0 := hset (fun hm => hr (mem_append_left _ hm)) hk
      omega
  | release c =>
    simp only [gateStep]
    split_ifs with hc
    · refine ⟨⟨.released hc, rfl⟩, fun hr => absurd ?_ hr⟩
      obtain ⟨hlt, -⟩ := List.getElem?_eq_some_iff.mp hc
      simpa [change, setCaller, releaseSlot_eq (h.held_pos hc)] using mem_set hlt .released
    · exact hsm
  | dispatch c =>
    simp only [gateStep]
    split_ifs with hc
    · exact hd _ (.dispatched hc)
    · exact hsm

def moments (n : ℕ) (events : List GateEvent) : List Moment := (trace gateStep (.idle n) events).flatMap Prod.snd

lemma run_changes (n : ℕ) (events : List GateEvent) :
    Changes (.idle n) (moments n events) (after gateStep (.idle n) events) ∧
      (after gateStep (.idle n) events).Settled := by
  have hs : (idle n).Settled := by
    rintro - ⟨k, hk⟩
    exact absurd rfl hk
  refine history
    (I := fun h g => Changes (.idle n) (h.flatMap Prod.snd) g ∧ g.Settled)
    ⟨rfl, hs⟩ ?_ events
  rintro h g e ⟨hc, hset⟩
  obtain ⟨hst, hset'⟩ := gateStep_changes ((sound_idle n).changes hc) hset e
  refine ⟨?_, hset'⟩
  simpa using changes_append hc hst

lemma Change.ceiling (hc : Change g l g') : g'.ceiling = g.ceiling := by
  cases hc with
  | handedBack | released =>
    simp only [releaseSlot]
    split_ifs <;> rfl
  | _ => rfl

lemma run_induction {P : List Moment → Gate → Prop} (h0 : P [] (.idle n))
    (hst : ∀ ms g m, g.Sound → P ms g → Change g m.granted m.gate → P (ms ++ [m]) m.gate)
    (events : List GateEvent) : P (moments n events) (after gateStep (.idle n) events) := by
  have hg : ∀ (ms ms₀ : List Moment) (g g' : Gate), g.Sound → P ms₀ g → Changes g ms g' → P (ms₀ ++ ms) g' := by
    intro ms
    induction ms with
    | nil =>
      intro ms₀ g g' _ hp hc
      rw [append_nil, hc]
      exact hp
    | cons m ms ih =>
      intro ms₀ g g' hs hp hc
      have hh := ih (ms₀ ++ [m]) m.gate g' (hs.change hc.1) (hst ms₀ g m hs hp hc.1) hc.2
      simpa using hh
  simpa using hg _ [] _ _ (sound_idle n) h0 (run_changes n events).1

lemma ceiling_run (n : ℕ) (events : List GateEvent) : (after gateStep (.idle n) events).ceiling = n := by
  refine run_induction (P := fun _ g => g.ceiling = n) rfl ?_ events
  intro ms g m _ hn hc
  rw [hc.ceiling, hn]

def Gate.Granted (g : Gate) (i : ℕ) : Prop := ∃ t, g.tickets[i]? = some t ∧ t.granted = true

def grants (ms : List Moment) : List ℕ := ms.filterMap Moment.granted

lemma Change.granted_mono (hc : Change g l g') (h : g.Granted j) : g'.Granted j := by
  obtain ⟨u, hu, hg⟩ := h
  have hset : ∀ {i : ℕ} {t : Ticket} (t' : Ticket), g.tickets[i]? = some t →
      (t.granted = true → t'.granted = true) →
      ∃ v, (g.tickets.set i t')[j]? = some v ∧ v.granted = true := by
    intro i t t' ht hi
    rw [getElem?_set_of_some ht]
    by_cases hj : j = i
    · subst hj
      cases hu.symm.trans ht
      exact ⟨t', by simp, hi hg⟩
    · exact ⟨u, by simp [hj, hu], hg⟩
  cases hc with
  | registered key =>
    obtain ⟨hlt, -⟩ := List.getElem?_eq_some_iff.mp hu
    exact ⟨u, by rw [register, getElem?_append_left hlt, hu], hg⟩
  | granted hf hsr hd ht => exact hset _ ht (fun _ => rfl)
  | entered ht hp hgt => exact hset _ ht id
  | handedBack phase ht hgt hs hp =>
    rename_i i t
    obtain ⟨v, hv, hvg⟩ := hset { t with sem := false, phase := phase } ht id
    exact ⟨v, by rwa [setTicket, releaseSlot_tickets], hvg⟩
  | withdrew ht hp hgt => exact hset _ ht id
  | acquired | dispatched => exact ⟨u, hu, hg⟩
  | released hc => exact ⟨u, by simpa [setCaller] using hu, hg⟩

lemma Change.newly_granted (h : g.Sound) (hc : Change g (some i) g') : ¬ g.Granted i ∧ g'.Granted i := by
  cases hc with
  | granted hf hs hd ht =>
    obtain ⟨⟨u, hu, -, hug, -⟩, -⟩ := h.of_served hs
    refine ⟨?_, _, by rw [getElem?_set_of_some ht, if_pos rfl], rfl⟩
    rintro ⟨v, hv, hvg⟩
    cases hu.symm.trans hv
    simp [hug] at hvg

lemma grants_once (n : ℕ) (events : List GateEvent) :
    (grants (moments n events)).Nodup ∧ ∀ i ∈ grants (moments n events),
      (after gateStep (.idle n) events).Granted i := by
  refine run_induction (P := fun ms g => (grants ms).Nodup ∧ ∀ i ∈ grants ms, g.Granted i)
    ⟨nodup_nil, by simp [grants]⟩ ?_ events
  rintro ms g ⟨l, g'⟩ hs ⟨hnd, ha⟩ hc
  cases l with
  | none =>
    simp only [grants, filterMap_append, filterMap_cons_none, filterMap_nil, append_nil] at hnd ha ⊢
    exact ⟨hnd, fun i hi => hc.granted_mono (ha i hi)⟩
  | some i =>
    obtain ⟨hold, hn⟩ := hc.newly_granted hs
    have hi : i ∉ grants ms := fun hm => hold (ha i hm)
    have happ : grants (ms ++ [⟨some i, g'⟩]) = grants ms ++ [i] := by
      simp [grants]
    rw [happ]
    refine ⟨hnd.append (nodup_singleton i) (by simpa using hi), fun j hj => ?_⟩
    rcases mem_append.mp hj with hj | hj
    · exact hc.granted_mono (ha j hj)
    · rw [mem_singleton.mp hj]
      exact hn

theorem gate_conserves_permits (n : ℕ) (events : List GateEvent) :
    let g := after gateStep (.idle n) events
    g.free + g.held + g.owned = n ∧
    (∀ t ∈ g.tickets, t.sem = true ↔ t.granted = true ∧ t.phase ≠ .timedOut ∧ t.phase ≠ .exited) ∧
    g.queue.ring.Nodup ∧
    (∀ k, k ∈ g.queue.ring ↔ g.queue.waiting k ≠ []) ∧
    (∀ i t, g.tickets[i]? = some t → t.granted = true → ∀ k, i ∉ g.queue.waiting k) ∧
    (∀ i t, g.tickets[i]? = some t → t.phase = .timedOut → t.sem = false ∧ ∀ k, i ∉ g.queue.waiting k) ∧
    (∀ i t, g.tickets[i]? = some t → t.granted = false → t.phase ≠ .timedOut →
      (g.queue.waiting t.tenant).count i = 1) ∧
    (grants (moments n events)).Nodup ∧
    (.released ∉ g.callers → (∃ k, g.queue.waiting k ≠ []) → g.free = 0) := by
  intro g
  obtain ⟨hc, hset⟩ := run_changes n events
  have h : g.Sound := (sound_idle n).changes hc
  have hn : ∀ i t, g.tickets[i]? = some t → (t.granted = true ∨ t.phase ≠ .blocked) →
      ∀ k, i ∉ g.queue.waiting k := by
    intro i t ht hor k hi
    obtain ⟨u, hu, -, hug, hup⟩ := (h.waiting k i).mp hi
    cases ht.symm.trans hu
    rcases hor with hg | hp
    · simp [hg] at hug
    · exact hp hup
  refine ⟨?_, ?_, h.exact.nodup, h.exact.mem, ?_, ?_, ?_, (grants_once n events).1, hset⟩
  · rw [h.permits]
    exact ceiling_run n events
  · intro t ht
    rw [h.sem t ht]
    cases t.phase <;> simp
  · exact fun i t ht hg => hn i t ht (.inl hg)
  · intro i t ht hp
    refine ⟨?_, hn i t ht (.inr (by simp [hp]))⟩
    have hs := h.sem t (mem_of_getElem? ht)
    simpa [hp] using hs
  · intro i t ht hg hp
    have hm := mem_of_getElem? ht
    have hb : t.phase = .blocked := by
      cases hph : t.phase with
      | blocked => rfl
      | inside => simp [h.entered t hm (.inl hph)] at hg
      | timedOut => exact absurd hph hp
      | exited => simp [h.entered t hm (.inr hph)] at hg
    exact count_eq_one_of_mem (h.nodup _) ((h.waiting _ i).mpr ⟨t, ht, rfl, hg, hb⟩)

end LeafWeb.Queue
