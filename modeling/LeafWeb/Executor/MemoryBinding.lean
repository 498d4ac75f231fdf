import LeafWeb.Executor.Capacity
import LeafWeb.Executor.Exclusive
import LeafWeb.Executor.Memory

namespace LeafWeb.Executor.Memory

open Lib Transition Table Function List Nat Option Memory

variable {m m' m'' : Memory} {bound : List ℕ}

def Backs (claims : Table ClaimRow.claimId) (claimId : ℕ) (place : String × String) : Prop :=
  ∃ c ∈ claims.rows, c.claimId = claimId ∧ c.place = place ∧ c.state = .active

/-- A slot is reported ready only where no claim on it is active. A session is released only while it
is live, or while its slot is not claimed. -/
def Careful (m : Memory) : Op → Prop
  | .setReadiness hostId slotId ready _ _ =>
    ready → ∀ c ∈ m.claims.rows, c.place = (hostId, slotId) → c.state ≠ .active
  | .release sessionId | .invalidate sessionId _ => ∀ s ∈ m.sessions.find sessionId,
    s.state.live ∨ ∀ r ∈ m.slots.find s.place, r.state ≠ .claimed
  | _ => True

structure Sound (m : Memory) (bound : List ℕ) : Prop where
  exclusive : Exclusive m.claims m.sessions bound
  vacant : ∀ r ∈ m.slots.rows, r.state = .ready → ∀ c ∈ m.claims.rows, c.state = .active → c.place ≠ r.place

structure Kept (m : Memory) (bound : List ℕ) (m' : Memory) : Prop where
  sound : Sound m' bound
  backs : ∀ k ∉ bound, ∀ place, Backs m.claims k place → Backs m'.claims k place
  claims : ∀ c' ∈ m'.claims.rows, ∃ c ∈ m.claims.rows, c'.claimId = c.claimId

lemma Kept.trans (h : Kept m bound m') (h' : Kept m' bound m'') : Kept m bound m'' where
  sound := h'.sound
  backs k hk place hb := h'.backs k hk place (h.backs k hk place hb)
  claims c'' hc'' := by
    obtain ⟨c', hc', hid'⟩ := h'.claims c'' hc''
    obtain ⟨c, hc, hid⟩ := h.claims c' hc'
    exact ⟨c, hc, hid'.trans hid⟩

lemma Sound.kept (h : Sound m' bound) (hc : m'.claims = m.claims) : Kept m bound m' where
  sound := h
  backs k _ place hb := by rwa [hc]
  claims c' hc' := ⟨c', hc ▸ hc', rfl⟩

lemma mem_foldl_put {r : Slot} {slots : Table Slot.place} {new : List Slot}
    (h : r ∈ (new.foldl put slots).rows) : r ∈ new ∨ r ∈ slots.rows := by
  induction new generalizing slots with
  | nil => exact .inr h
  | cons s new ih =>
    rcases ih h with hn | hp
    · exact .inl (mem_cons_of_mem _ hn)
    rcases mem_put hp with rfl | ⟨hold, -⟩
    · exact .inl mem_cons_self
    · exact .inr hold

variable {k minted : ℕ} {found x : Slot × ClaimRow} {claimId : ℕ} {dbNow expectedVersion expiresAt timeout : ℤ}
  {executorId slotId sid : String}

lemma mem_releaseClaim {c : ClaimRow} (hc : c ∈ (m.releaseClaim claimId).claims.rows)
    (ha : c.state = .active) : c ∈ m.claims.rows ∧ c.claimId ≠ claimId := by
  obtain ⟨c₀, hc₀, rfl⟩ := mem_map.mp hc
  split_ifs at ha ⊢ with hp
  · cases ha
  · exact ⟨hc₀, by simpa using hp⟩

lemma backs_releaseClaim {place : String × String} (hne : k ≠ claimId)
    (h : Backs m.claims k place) : Backs (m.releaseClaim claimId).claims k place := by
  obtain ⟨c, hc, rfl, hr⟩ := h
  exact ⟨c, mem_map.mpr ⟨c, hc, if_neg (by simpa using hne)⟩, rfl, hr⟩

lemma claims_releaseClaim :
    ∀ c' ∈ (m.releaseClaim claimId).claims.rows, ∃ c ∈ m.claims.rows, c'.claimId = c.claimId := by
  intro c' hc'
  obtain ⟨c, hc, rfl⟩ := mem_map.mp hc'
  refine ⟨c, hc, ?_⟩
  split_ifs <;> rfl

lemma claimReadySlot_refused {e : StoreError}
    (hok : m.claimReadySlot timeout dbNow claimId expiresAt = (.error e, m')) :
    ∃ cursor, m' = { m with candidateCursor := cursor } := by
  unfold claimReadySlot at hok
  split at hok
  · cases hok
    exact ⟨_, rfl⟩
  next candidate u hc =>
    simp only [candidateLocked, bind_demand] at hc
    obtain ⟨slot, -, rfl, rfl⟩ := hc
    split at hok
    all_goals cases hok
    exact ⟨_, rfl⟩

section

variable (h : Sound m bound)
include h

lemma Sound.slots {slots : Table Slot.place}
    (hrd : ∀ r' ∈ slots.rows, r'.state = .ready →
      (∃ r ∈ m.slots.rows, r.state = .ready ∧ r.place = r'.place) ∨
        ∀ c ∈ m.claims.rows, c.state = .active → c.place ≠ r'.place) :
    Sound { m with slots } bound where
  exclusive := h.exclusive
  vacant r' hr' hs c hc ha := by
    rcases hrd r' hr' hs with ⟨r, hr, hrs, hp⟩ | hn
    · rw [← hp]
      exact h.vacant r hr hrs c hc ha
    · exact hn c hc ha

lemma Sound.updateSlots {f : Slot → Slot} {q : Slot → Bool} (hf : ∀ r, (f r).place = r.place)
    (hrd : ∀ r ∈ m.slots.rows, q r → (f r).state = .ready →
      ∀ c ∈ m.claims.rows, c.state = .active → c.place ≠ r.place) :
    Sound { m with slots := m.slots.updateWhere q f hf } bound := by
  apply h.slots
  intro r' hr' hs
  obtain ⟨r, hr, rfl⟩ := mem_updateWhere.mp hr'
  split_ifs at hs ⊢ with hq
  · right
    rw [hf]
    exact hrd r hr hq hs
  · exact .inl ⟨r, hr, hs, rfl⟩

lemma Sound.registerHost (executorId endpoint : String) (slotIds : List String)
    (now : ℤ) : Sound (m.registerHost executorId endpoint slotIds now).2 bound := by
  refine ⟨h.exclusive, (h.slots ?_).vacant⟩
  intro r hr hs
  rcases mem_foldl_put hr with hn | hold
  · obtain ⟨slotId, -, rfl⟩ := mem_map.mp hn
    cases hs
  · exact .inl ⟨r, hold, hs, rfl⟩

lemma Sound.freeSlot (place : String × String)
    (hf : (∀ c ∈ m.claims.rows, c.state = .active → c.place ≠ place) ∨
      ∀ r ∈ m.slots.find place, r.state ≠ .claimed) :
    Sound (m.freeSlot place).2 bound ∧ (m.freeSlot place).2.claims = m.claims := by
  unfold Memory.freeSlot
  split
  · exact ⟨h, rfl⟩
  refine ⟨h.updateSlots Slot.free_place ?_, rfl⟩
  intro r hr hq _ c hc ha
  simp only [Bool.and_eq_true, decide_eq_true_eq] at hq
  rw [hq.1]
  rcases hf with hn | hu
  · exact hn c hc ha
  · exact absurd hq.2 (hu r (find_some.mpr ⟨hr, hq.1⟩))

lemma Sound.claimSlot (hf : ∀ c ∈ m.claims.rows, c.claimId ≠ claimId)
    (hok : m.claimSlot timeout dbNow executorId slotId expectedVersion claimId expiresAt = .ok (found, m')) :
    Sound m' bound ∧ m'.claims.rows = m.claims.rows ++ [found.2] ∧ found.2.claimId = claimId ∧
      found.2.place = found.1.place ∧ found.2.state = .active := by
  simp only [Memory.claimSlot, bind_demand, bind_refuse, not_or, not_not] at hok
  obtain ⟨slot, hfn, ⟨hrd, -⟩, rfl, rfl⟩ := hok
  have hk : claimId ∉ m.claims.rows.map ClaimRow.claimId := by
    intro hm
    obtain ⟨c, hc, hid⟩ := mem_map.mp hm
    exact hf c hc hid
  obtain ⟨claims, hi⟩ : ∃ claims, m.claims.insert
      ⟨claimId, slot.executorId, slot.slotId, slot.version + 1, expiresAt, .active⟩ = some claims := by
    simp [Table.insert, hk]
  have hsl := mem_of_find hfn
  rw [put_of_insert hi]
  refine ⟨⟨h.exclusive.claim ?_ hi, ?_⟩, (insert_rows hi).1, rfl, rfl, rfl⟩
  · exact fun c hc ha => h.vacant slot hsl hrd c hc ha
  intro r' hr' hs c hc ha
  obtain ⟨r, hr, rfl⟩ := mem_map.mp hr'
  split_ifs at hs ⊢ with hq
  · cases hs
  rw [mem_insert hi] at hc
  rcases hc with hc | rfl
  · exact h.vacant r hr hs c hc ha
  · intro hp
    exact hq (decide_eq_true hp.symm)

lemma Sound.claimReadySlot (hf : ∀ c ∈ m.claims.rows, c.claimId ≠ claimId)
    (hok : m.claimReadySlot timeout dbNow claimId expiresAt = (.ok found, m')) :
    Sound m' bound ∧ m'.claims.rows = m.claims.rows ++ [found.2] ∧ found.2.claimId = claimId ∧
      found.2.place = found.1.place ∧ found.2.state = .active := by
  unfold Memory.claimReadySlot at hok
  split at hok
  · cases hok
  next candidate u hc =>
    split at hok
    · cases hok
    next hcl =>
      cases hok
      simp only [candidateLocked, bind_demand] at hc
      obtain ⟨slot, -, rfl, rfl⟩ := hc
      have hcr : Sound { m with candidateCursor := m.candidateCursor + 1 } bound := ⟨h.exclusive, h.vacant⟩
      exact hcr.claimSlot hf hcl

lemma Sound.abortClaim (hfr : claimId ∉ bound) :
    Sound (m.abortClaim claimId).2 bound ∧
      (∀ k, k ≠ claimId → ∀ place, Backs m.claims k place → Backs (m.abortClaim claimId).2.claims k place) ∧
        ∀ c' ∈ (m.abortClaim claimId).2.claims.rows, ∃ c ∈ m.claims.rows, c'.claimId = c.claimId := by
  unfold Memory.abortClaim
  split
  · exact ⟨h, fun _ _ _ hb => hb, fun c hc => ⟨c, hc, rfl⟩⟩
  rename_i c hc
  obtain ⟨hf, ha⟩ := filter_eq_some_iff.mp hc
  have hrl : Sound (m.releaseClaim claimId) bound := by
    refine ⟨?_, fun r hr hrd c' hc' ha' => ?_⟩
    · have hfn := h.exclusive.fence (p := fun c => c.claimId = claimId) (q := fun _ => false) (by
        intro c' _ hp s hs hid _
        exact absurd (hid.trans (of_decide_eq_true hp)) (h.exclusive.unused hs hfr))
      rwa [updateWhere_none] at hfn
    · exact h.vacant r hr hrd c' (mem_releaseClaim hc' ha').1 ha'
  obtain ⟨hsn, hcl⟩ := hrl.freeSlot c.place (by
    left
    intro c' hc' ha' hpl
    obtain ⟨hm, hne⟩ := mem_releaseClaim hc' ha'
    have hsm := h.exclusive.index c' hm c (mem_of_find hf) ha' (of_decide_eq_true ha) hpl
    exact hne (hsm ▸ find_key hf))
  rw [hcl]
  exact ⟨hsn, fun k hne place hb => backs_releaseClaim hne hb, claims_releaseClaim⟩

lemma Sound.touch {sessions : Table Session.sessionId}
    (hs : ∀ s' ∈ sessions.rows, ∃ s ∈ m.sessions.rows, s'.Follows s) : Kept m bound { m with sessions } :=
  Sound.kept ⟨h.exclusive.touch hs, h.vacant⟩ rfl

lemma Sound.createSession {s : Session} (hb : Backs m.claims s.claimId s.place)
    (hf : s.claimId ∉ bound) (hok : m.createSession s = .ok m') :
    Sound m' (s.claimId :: bound) ∧ m'.claims = m.claims := by
  simp only [Memory.createSession, bind_refuse, pure_eq_ok] at hok
  obtain ⟨-, rfl⟩ := hok
  refine ⟨⟨h.exclusive.bind ?_ hb hf, h.vacant⟩, rfl⟩
  intro r hr
  rcases mem_put hr with rfl | ⟨hold, -⟩
  · exact .inl (.refl r)
  · exact .inr hold

variable {l : Lease}

lemma Sound.activate (hok : m.activate sid l = .ok m') : Kept m bound m' := by
  simp only [Memory.activate, bind_demand, bind_refuse, pure_eq_ok, not_or, not_not] at hok
  obtain ⟨s, hf, ⟨hb, -⟩, rfl⟩ := hok
  apply h.touch
  apply follows_updateWhere
  intro r hr hid
  obtain rfl : r = s := m.sessions.eq_of_key hr (mem_of_find hf) ((of_decide_eq_true hid).trans (find_key hf).symm)
  exact ⟨rfl, rfl, rfl, rfl, fun _ => by rw [hb]; rfl⟩

lemma Sound.renew {expectedEpoch : ℤ} (hok : m.renew sid expectedEpoch l = .ok m') : Kept m bound m' := by
  simp only [Memory.renew, bind_demand, bind_refuse, pure_eq_ok] at hok
  obtain ⟨s, -, -, rfl⟩ := hok
  apply h.touch
  apply follows_updateWhere
  intro r _ _
  exact ⟨rfl, rfl, rfl, rfl, id⟩

lemma Sound.drain (executorId : String) : Kept m bound (m.drain executorId).2 := by
  have hs := h.updateSlots (q := fun s => s.executorId = executorId) Slot.drain_place (by
    intro r _ _ hr
    cases hr)
  refine Sound.kept ⟨h.exclusive.touch (follows_updateWhere Session.drain_id ?_), hs.vacant⟩ rfl
  intro s _ hq
  simp only [Bool.and_eq_true, decide_eq_true_eq] at hq
  exact ⟨rfl, rfl, rfl, rfl, fun _ => by rw [hq.2]; rfl⟩

lemma Sound.release (hcr : ∀ s ∈ m.sessions.find sid, s.state.live ∨
    ∀ r ∈ m.slots.find s.place, r.state ≠ .claimed) : Kept m bound (m.release sid).2 := by
  unfold Memory.release
  split
  · exact Sound.kept h rfl
  rename_i s hf
  have hs := mem_of_find hf
  have hid : s.sessionId = sid := find_key hf
  have he : Sound ((m.endSession sid).releaseClaim s.claimId) bound := by
    refine ⟨h.exclusive.fence ?_, ?_⟩
    · intro c _ hp s' hs' hcm _
      have hsm := h.exclusive.once s' hs' s hs (hcm.trans (of_decide_eq_true hp))
      exact decide_eq_true (hsm ▸ hid)
    · intro r hr hrd c hc ha
      exact h.vacant r hr hrd c (mem_releaseClaim (m := m) hc ha).1 ha
  obtain ⟨hsn, hcl⟩ := he.freeSlot s.place (by
    rcases hcr s hf with hl | hu
    · left
      intro c hc ha hpl
      obtain ⟨hm, hne⟩ := mem_releaseClaim (m := m) hc ha
      obtain ⟨c₀, hc₀, hid₀, hpl₀, ha₀⟩ := h.exclusive.backed s hs hl
      exact hne (h.exclusive.index c hm c₀ hc₀ ha ha₀ (hpl.trans hpl₀.symm) ▸ hid₀)
    · exact .inr hu)
  refine ⟨hsn, ?_, ?_⟩
  · intro k hk place hb
    rw [hcl]
    refine backs_releaseClaim (m := m) ?_ hb
    rintro rfl
    exact hk (h.exclusive.noted s hs)
  · rw [hcl]
    exact claims_releaseClaim (m := m)

end

lemma release_find {k : String} (hne : k ≠ sid) : (m.release sid).2.sessions.find k = m.sessions.find k := by
  unfold release freeSlot
  split
  · rfl
  · have hf : (m.endSession sid).sessions.find k = m.sessions.find k := by
      rw [endSession, find_updateWhere]
      cases hk : m.sessions.find k with
      | none => rfl
      | some s =>
        have hkey : s.sessionId ≠ sid := fun h => hne ((find_key hk).symm.trans h)
        simp [hkey]
    dsimp only
    split <;> exact hf

lemma Sound.releaseAll {ids : List String} (h : Sound m bound) (hi : ids.Nodup)
    (hl : ∀ id ∈ ids, ∀ s ∈ m.sessions.find id, s.state.live) : Kept m bound (m.releaseAll ids).2 := by
  induction ids generalizing m with
  | nil => exact Sound.kept h rfl
  | cons id ids ih =>
    have hf : Kept m bound (m.release id).2 := h.release fun s hs => .inl (hl id mem_cons_self s hs)
    obtain ⟨hn, hi⟩ := nodup_cons.mp hi
    unfold releaseAll
    dsimp only
    split
    · exact hf
    refine hf.trans (ih hf.sound hi ?_)
    intro id' hid' s hs
    rw [release_find (by rintro rfl; exact hn hid')] at hs
    exact hl id' (mem_cons_of_mem _ hid') s hs

variable {P : Memory → Prop}

lemma checked_ok {α : Type} {answer : α → Answer} {x : Except StoreError (α × Memory)} (h0 : P m)
    (h : ∀ a m', x = .ok (a, m') → P m') : P (m.checked answer x).2 := by
  cases x with
  | error e => exact h0
  | ok p => exact h p.1 p.2 rfl

lemma checked_done {x : Except StoreError Memory} (h0 : P m)
    (h : ∀ m', x = .ok m' → P m') : P (m.checked (fun _ => .done) (x.map ((), ·))).2 := by
  cases x with
  | error e => exact h0
  | ok m' => exact h m' rfl

lemma answered_snd {α : Type} (answer : α → Answer) (x : Except StoreError α × Memory) :
    (answered answer x).2 = x.2 := by
  obtain ⟨a | a, m'⟩ := x <;> rfl

def plain : Op → Bool
  | .claimSlot .. | .claimReadySlot .. | .abortClaim .. | .createSession .. => false
  | _ => true

lemma Sound.plain {op : Op} (h : Sound m bound) (hop : plain op) (hcr : Careful m op) :
    Kept m bound (m.apply timeout op).2 := by
  have hsm : Kept m bound m := Sound.kept h rfl
  cases op with
  | claimSlot | claimReadySlot | abortClaim | createSession => cases hop
  | registerHost hostId endpoint slotIds dbNow =>
    exact Sound.kept (h.registerHost hostId endpoint slotIds dbNow) rfl
  | setReadiness hostId slotId ready code runtime =>
    apply checked_ok hsm
    intro slot m' hok
    simp only [setReadiness, bind_demand] at hok
    obtain ⟨r, -, -, rfl⟩ := hok
    refine Sound.kept (h.updateSlots _ ?_) rfl
    intro r _ hq hst c hc ha hp
    cases ready with
    | false => cases hst
    | true => exact hcr rfl c hc (hp.trans (of_decide_eq_true hq)) ha
  | heartbeat hostId dbNow =>
    apply checked_done hsm
    intro m' hok
    simp only [heartbeat, bind_refuse, pure_eq_ok] at hok
    obtain ⟨-, rfl⟩ := hok
    exact Sound.kept ⟨h.exclusive, h.vacant⟩ rfl
  | activate sid l => exact checked_done hsm fun m' hok => h.activate hok
  | renew sid expectedEpoch l => exact checked_done hsm fun m' hok => h.renew hok
  | release sid =>
    simp only [apply, answered_snd]
    exact h.release hcr
  | invalidate sid expectedEpoch =>
    simp only [apply, answered_snd, invalidate]
    split
    · exact hsm
    split_ifs
    · exact hsm
    · exact h.release hcr
  | reclaim now idleBefore locked dbNow event =>
    simp only [apply, answered_snd]
    apply h.releaseAll
    · exact ((filter_sublist.map _).nodup m.sessions.distinct)
    intro id hid s hs
    obtain ⟨s', hs', rfl⟩ := mem_map.mp hid
    obtain ⟨hs', hr⟩ := mem_filter.mp hs'
    rw [m.sessions.eq_of_key (mem_of_find hs) hs' (find_key hs)]
    exact (Bool.and_eq_true_iff.mp hr).1
  | drain hostId => exact h.drain hostId
  | completeReclaim | getSession | getSlot | getClaim => exact hsm

variable {task : Task} {cfg : Settings} {turn : Turn}

def held : Task → Option ℕ
  | .creating _ _ _ _ claim => some claim.claimId
  | .aborting claimId => some claimId
  | _ => none

def granted : Task → Option (Slot × ClaimRow)
  | .creating _ _ _ slot claim => some (slot, claim)
  | _ => none

lemma held_of_granted (h : x ∈ granted task) : x.2.claimId ∈ held task := by
  cases task with
  | creating r epoch now slot claim =>
    obtain rfl := some.inj h
    rfl
  | _ => cases h

def takes : Task → Bool
  | .claiming .. => true
  | _ => false

lemma calls_plain (hh : held task = none) (ht : ¬takes task) : ∀ op ∈ calls cfg minted turn task, plain op := by
  intro op hop
  cases task with
  | claiming => exact absurd rfl ht
  | creating | aborting => cases hh
  | idle | loading | asking => cases hop
  | _ =>
    obtain rfl := some.inj hop
    rfl

lemma held_claim (turn : Turn) (r : Request) (epoch now : ℤ) : held (Task.claim turn r epoch now) = none := by
  unfold Task.claim
  split_ifs <;> rfl

lemma held_next (turn : Turn) (next : Next) : held (next.task turn) = none := by
  cases next with
  | stop | assign => rfl
  | claim r epoch now => exact held_claim turn r epoch now
  | sweep rest => cases rest <;> rfl

lemma next_held {answer : Answer} (hh : held task = none) (ht : ¬takes task) :
    held (task.next minted turn answer) = none := by
  cases task with
  | claiming => exact absurd rfl ht
  | creating | aborting => cases hh
  | completing sid next => exact held_next turn next
  | loading s slot claim now | activating s slot claim now | asking s next =>
    simp only [Task.next]
    split_ifs <;> rfl
  | releasing sid next | invalidating sid epoch next =>
    cases answer with
    | session found =>
      cases found with
      | none => exact held_next turn next
      | some s => rfl
    | _ => rfl
  | locating s next =>
    cases answer with
    | slot found =>
      cases found with
      | some slot => rfl
      | none =>
        cases next with
        | sweep rest => exact held_next turn (.sweep rest)
        | _ => rfl
    | _ => cases next <;> rfl
  | sweeping idleTimeout =>
    cases answer with
    | sessions found => exact held_next turn (.sweep found)
    | _ => rfl
  | assigning r epoch =>
    cases answer with
    | session found =>
      simp only [Task.next]
      split
      · exact held_claim turn r epoch turn.now
      · split_ifs <;> rfl
    | _ => rfl
  | rebinding r =>
    cases answer with
    | session found => cases found <;> rfl
    | _ => rfl
  | renewing sid epoch =>
    cases answer with
    | session found =>
      cases found with
      | none => rfl
      | some s =>
        simp only [Task.next]
        split_ifs <;> rfl
    | _ => rfl
  | renewingSlot s epoch =>
    cases answer with
    | slot found => cases found <;> rfl
    | _ => rfl
  | renewingClaim s slot epoch =>
    cases answer with
    | claim found =>
      cases found with
      | none => rfl
      | some c =>
        simp only [Task.next]
        split_ifs <;> rfl
    | _ => rfl
  | idle | storing => rfl

variable {p : Plane Memory}

structure Holds (p : Plane Memory) (bound : List ℕ) : Prop where
  sound : Sound p.db bound
  bounded : ∀ k ∈ bound, k < p.minted
  claims : ∀ c ∈ p.db.claims.rows, c.claimId < p.minted
  minted : ∀ w, ∀ k ∈ held (p.tasks w), k < p.minted
  free : ∀ w, ∀ k ∈ held (p.tasks w), k ∉ bound
  apart : ∀ w w', ∀ k ∈ held (p.tasks w), k ∈ held (p.tasks w') → w = w'
  backed : ∀ w, ∀ x ∈ granted (p.tasks w), Backs p.db.claims x.2.claimId x.1.place

def Lesser (task' task : Task) : Prop := granted task' = none ∧ ∀ k ∈ held task', k ∈ held task

lemma lesser_of_none {task' : Task} (h : held task' = none) (task : Task) : Lesser task' task := by
  refine ⟨?_, fun k hk => by rw [h] at hk; cases hk⟩
  apply eq_none_iff_forall_ne_some.mpr
  intro x hx
  have hh := held_of_granted (mem_def.mpr hx)
  cases h.symm.trans hh

lemma Holds.quiet {tasks : ℕ → Task} (h : Holds p bound) (hkp : Kept p.db bound m)
    (ht : ∀ w, tasks w = p.tasks w ∨ Lesser (tasks w) (p.tasks w)) : Holds ⟨m, tasks, p.minted + 1⟩ bound := by
  have hold : ∀ w, ∀ k ∈ held (tasks w), k ∈ held (p.tasks w) := by
    intro w k hk
    rcases ht w with hs | hl
    · exact hs ▸ hk
    · exact hl.2 k hk
  refine ⟨hkp.sound, ?_, ?_, ?_, ?_, ?_, ?_⟩
  · exact fun k hk => lt_succ_of_lt (h.bounded k hk)
  · intro c' hc'
    obtain ⟨c, hc, hid⟩ := hkp.claims c' hc'
    rw [hid]
    exact lt_succ_of_lt (h.claims c hc)
  · exact fun w k hk => lt_succ_of_lt (h.minted w k (hold w k hk))
  · exact fun w k hk => h.free w k (hold w k hk)
  · exact fun w w' k hk hk' => h.apart w w' k (hold w k hk) (hold w' k hk')
  · intro w x hx
    rcases ht w with hs | hl
    · have hx' : x ∈ granted (p.tasks w) := hs ▸ hx
      exact hkp.backs _ (h.free w _ (held_of_granted hx')) _ (h.backed w x hx')
    · cases hl.1.symm.trans hx

lemma lesser_update (p : Plane Memory) (w : ℕ) (ht : Lesser task (p.tasks w)) (w' : ℕ) :
    update p.tasks w task w' = p.tasks w' ∨ Lesser (update p.tasks w task w') (p.tasks w') := by
  by_cases hw : w' = w
  · rw [hw, update_self]
    exact .inr ht
  · rw [update_of_ne hw]
    exact .inl rfl

lemma Holds.grant {w : ℕ} {r : Request} {epoch now : ℤ} (h : Holds p bound) (hs : Sound m bound)
    (hr : m.claims.rows = p.db.claims.rows ++ [found.2]) (hid : found.2.claimId = p.minted)
    (hp : found.2.place = found.1.place) (ha : found.2.state = .active) :
    Holds ⟨m, update p.tasks w (.creating r epoch now found.1 found.2), p.minted + 1⟩
      bound := by
  have hf : p.minted ∉ bound := fun hm => lt_irrefl _ (h.bounded _ hm)
  have ht : ∀ w', ∀ k ∈ held (update p.tasks w
      (.creating r epoch now found.1 found.2) w'), w' = w ∧ k = p.minted ∨ w' ≠ w ∧ k ∈ held (p.tasks w') := by
    intro w' k hk
    by_cases hw : w' = w
    · rw [hw, update_self] at hk
      exact .inl ⟨hw, (some.inj hk).symm.trans hid⟩
    · rw [update_of_ne hw] at hk
      exact .inr ⟨hw, hk⟩
  refine ⟨hs, ?_, ?_, ?_, ?_, ?_, ?_⟩
  · exact fun k hk => lt_succ_of_lt (h.bounded k hk)
  · intro c hc
    rw [hr, mem_append, mem_singleton] at hc
    rcases hc with hc | rfl
    · exact lt_succ_of_lt (h.claims c hc)
    · rw [hid]
      exact lt_succ_self _
  · intro w' k hk
    rcases ht w' k hk with ⟨-, rfl⟩ | ⟨-, hk⟩
    · exact lt_succ_self _
    · exact lt_succ_of_lt (h.minted w' k hk)
  · intro w' k hk
    rcases ht w' k hk with ⟨-, rfl⟩ | ⟨-, hk⟩
    · exact hf
    · exact h.free w' k hk
  · intro w₁ w₂ k hk₁ hk₂
    rcases ht w₁ k hk₁ with ⟨rfl, rfl⟩ | ⟨-, hk₁⟩
    · rcases ht w₂ _ hk₂ with ⟨rfl, -⟩ | ⟨-, hk₂⟩
      · rfl
      · exact absurd (h.minted w₂ _ hk₂) (lt_irrefl _)
    · rcases ht w₂ k hk₂ with ⟨-, rfl⟩ | ⟨-, hk₂⟩
      · exact absurd (h.minted w₁ _ hk₁) (lt_irrefl _)
      · exact h.apart w₁ w₂ k hk₁ hk₂
  · intro w' x hx
    dsimp only at hx
    by_cases hw : w' = w
    · rw [hw, update_self] at hx
      obtain rfl := some.inj hx
      exact ⟨found.2, by rw [hr]; exact mem_append_right _ mem_cons_self, rfl, hp, ha⟩
    · rw [update_of_ne hw] at hx
      obtain ⟨c, hc, hrs⟩ := h.backed w' x hx
      exact ⟨c, by rw [hr]; exact mem_append_left _ hc, hrs⟩

lemma Holds.letGo {w : ℕ} {bound' : List ℕ} (h : Holds p bound) (hk : k ∈ held (p.tasks w))
    (ht : held task = none) (hs : Sound m bound') (hbn : ∀ b ∈ bound', b = k ∨ b ∈ bound)
    (hbc : ∀ k', k' ≠ k → ∀ place, Backs p.db.claims k' place → Backs m.claims k' place)
    (hcl : ∀ c' ∈ m.claims.rows, ∃ c ∈ p.db.claims.rows, c'.claimId = c.claimId) :
    Holds ⟨m, update p.tasks w task, p.minted + 1⟩ bound' := by
  have hold : ∀ w', ∀ k' ∈ held (update p.tasks w task w'), k' ∈ held (p.tasks w') ∧ k' ≠ k ∧ w' ≠ w := by
    intro w' k' hk'
    by_cases hw : w' = w
    · rw [hw, update_self, ht] at hk'
      cases hk'
    rw [update_of_ne hw] at hk'
    refine ⟨hk', ?_, hw⟩
    rintro rfl
    exact hw (h.apart w' w _ hk' hk)
  refine ⟨hs, ?_, ?_, ?_, ?_, ?_, ?_⟩
  · intro b hb
    rcases hbn b hb with rfl | hb
    · exact lt_succ_of_lt (h.minted w _ hk)
    · exact lt_succ_of_lt (h.bounded b hb)
  · intro c' hc'
    obtain ⟨c, hc, hid⟩ := hcl c' hc'
    rw [hid]
    exact lt_succ_of_lt (h.claims c hc)
  · exact fun w' k' hk' => lt_succ_of_lt (h.minted w' k' (hold w' k' hk').1)
  · intro w' k' hk' hm
    obtain ⟨hold, hne, -⟩ := hold w' k' hk'
    exact (hbn k' hm).elim hne (h.free w' k' hold)
  · exact fun w₁ w₂ k' hk₁ hk₂ => h.apart w₁ w₂ k' (hold w₁ k' hk₁).1 (hold w₂ k' hk₂).1
  · intro w' x hx
    obtain ⟨-, hne, hw⟩ := hold w' _ (held_of_granted hx)
    dsimp only at hx
    rw [update_of_ne hw] at hx
    exact hbc _ hne _ (h.backed w' x hx)

lemma Holds.resume (h : Holds p bound) (w : ℕ) (turn : Turn)
    (hcr : ∀ op ∈ calls cfg p.minted turn (p.tasks w), Careful p.db op) :
    ∃ bound', Holds (step cfg p (.resume w turn)).2 bound' := by
  have hf : ∀ c ∈ p.db.claims.rows, c.claimId ≠ p.minted := fun c hc => Nat.ne_of_lt (h.claims c hc)
  have hsm : Kept p.db bound p.db := Sound.kept h.sound rfl
  by_cases ho : held (p.tasks w) = none ∧ ¬takes (p.tasks w)
  · obtain ⟨hh, htk⟩ := ho
    refine ⟨bound, h.quiet ?_ (lesser_update p w (lesser_of_none (next_held hh htk) _))⟩
    split
    · exact hsm
    next op hop =>
      exact h.sound.plain (calls_plain hh htk op hop) (hcr op hop)
  cases ht : p.tasks w with
  | claiming r epoch now attempts =>
    refine ⟨bound, ?_⟩
    simp only [step, transact, Event.op, ht, calls, apply, schedule]
    rcases hok : p.db.claimReadySlot cfg.heartbeatTimeout turn.dbNow p.minted (now + cfg.leaseLifetime) with
      ⟨answer, m'⟩
    cases answer with
    | error e =>
      obtain ⟨cursor, rfl⟩ := claimReadySlot_refused hok
      exact h.quiet (Sound.kept ⟨h.sound.exclusive, h.sound.vacant⟩ rfl) (lesser_update p w (lesser_of_none rfl _))
    | ok found =>
      obtain ⟨hs, hr, hid, hp, hac⟩ := h.sound.claimReadySlot hf hok
      exact h.grant hs hr hid hp hac
  | creating r epoch now slot claim =>
    have hk : claim.claimId ∈ held (p.tasks w) := by
      rw [ht]
      rfl
    have ha : Lesser (.aborting claim.claimId) (p.tasks w) := ⟨rfl, fun k hk' => some.inj hk' ▸ hk⟩
    simp only [step, transact, Event.op, ht, calls, schedule]
    by_cases hg : r.genuine
    · simp only [hg, if_true, apply, Task.next]
      cases hok : p.db.createSession (r.session epoch slot claim p.minted) with
      | error e => exact ⟨bound, h.quiet hsm (lesser_update p w ha)⟩
      | ok m =>
        obtain ⟨hs, hcl⟩ := h.sound.createSession (h.backed w (slot, claim) (by rw [ht]; rfl)) (h.free w _ hk) hok
        refine ⟨claim.claimId :: bound, h.letGo hk rfl hs ?_ ?_ ?_⟩
        · exact fun b hb => mem_cons.mp hb
        · exact fun k' _ place hbk => hcl ▸ hbk
        · exact fun c hc => ⟨c, hcl ▸ hc, rfl⟩
    · simp only [hg, Task.next]
      exact ⟨bound, h.quiet hsm (lesser_update p w ha)⟩
  | aborting claimId =>
    have hk : claimId ∈ held (p.tasks w) := by
      rw [ht]
      rfl
    obtain ⟨hs, hbc, hcl⟩ := h.sound.abortClaim (h.free w claimId hk)
    refine ⟨bound, ?_⟩
    simp only [step, transact, Event.op, ht, calls, apply, schedule, answered_snd]
    exact h.letGo hk rfl hs (fun b hb => .inr hb) hbc hcl
  | _ => exact absurd ⟨by rw [ht]; rfl, by rw [ht]; exact Bool.false_ne_true⟩ ho

instance (m : Memory) : (op : Op) → Decidable (Careful m op)
  | .setReadiness .. => inferInstanceAs (Decidable (_ → ∀ c ∈ m.claims.rows, _ → _ ≠ _))
  | .release _ | .invalidate .. =>
    inferInstanceAs (Decidable (∀ s ∈ m.sessions.find _, _ ∨ ∀ r ∈ m.slots.find s.place, _ ≠ _))
  | .registerHost .. | .heartbeat .. | .claimSlot .. | .claimReadySlot .. | .abortClaim .. |
    .createSession .. | .activate .. | .renew .. | .reclaim .. | .completeReclaim .. | .drain .. |
    .getSession .. | .getSlot .. | .getClaim .. => isTrue trivial

def CarefulStep (cfg : Settings) (p : Plane Memory) (e : Event) : Prop := ∀ op ∈ e.op cfg p, Careful p.db op
  deriving Decidable

lemma Holds.step (h : Holds p bound) (e : Event) (hc : CarefulStep cfg p e) :
    ∃ bound', Holds (step cfg p e).2 bound' := by
  have hs : Kept p.db bound p.db := Sound.kept h.sound rfl
  cases e with
  | resume w turn => exact h.resume w turn hc
  | crash w => exact ⟨bound, h.quiet hs (lesser_update p w (lesser_of_none rfl _))⟩
  | start w job =>
    refine ⟨bound, h.quiet hs ?_⟩
    simp only [schedule]
    split_ifs
    · exact lesser_update p w (lesser_of_none (by cases job <;> rfl) _)
    · exact fun w' => .inl rfl
  | host call =>
    refine ⟨bound, h.quiet (h.sound.plain ?_ (hc _ rfl)) fun w => .inl rfl⟩
    cases call <;> rfl

lemma holds_start : Holds start [] where
  sound := ⟨exclusive_empty, fun r hr => by cases hr⟩
  bounded k hk := by cases hk
  claims c hc := by cases hc
  minted w k hk := by cases hk
  free w k hk := by cases hk
  apart w w' k hk := by cases hk
  backed w x hx := by cases hx

theorem memory_exclusive_binding (cfg : Settings) (events : List Event)
    (h : Along (step cfg) (CarefulStep cfg) start events) :
    ∀ s ∈ (after (step cfg) start events).db.sessions.rows,
      ∀ s' ∈ (after (step cfg) start events).db.sessions.rows,
        s.state.live → s'.state.live → s.place = s'.place → s = s' := by
  obtain ⟨bound, hh⟩ := invariant_along (I := fun p => ∃ bound, Holds p bound)
    ⟨[], holds_start⟩ (by rintro p e ⟨_, hp⟩ hcr; exact hp.step e hcr) events h
  intro s hs s' hs' hl hl' hpl
  obtain ⟨c, hc, hid, hcp, ha⟩ := hh.sound.exclusive.backed s hs hl
  obtain ⟨c', hc', hid', hcp', ha'⟩ := hh.sound.exclusive.backed s' hs' hl'
  have hsm : c = c' := by
    apply hh.sound.exclusive.index c hc c' hc' ha ha'
    rw [hcp, hcp', hpl]
  exact hh.sound.exclusive.once s hs s' hs' (by rw [← hid, ← hid', hsm])

def requestOf (sessionId : String) : Request := { Request.sample with sessionId }

def bind (sessionId : String) : List Event := works 0 (.assign (requestOf sessionId)) (.smooth 0 "slot-1") 5

def released (sessionId : String) : List Event := works 0 (.release sessionId) (.smooth 0 "slot-1") 4

def handedOn : List Event := hostReady ["slot-1"] ++ bind "a" ++ released "a" ++ bind "b"

theorem handed_on_once :
    ((after (step .usual) start handedOn).db.sessions.rows.map fun s =>
        (s.sessionId, s.state)) = [("a", .invalid), ("b", .active)] ∧
      ∀ s ∈ (after (step .usual) start handedOn).db.sessions.rows,
        ∀ s' ∈ (after (step .usual) start handedOn).db.sessions.rows,
          s.state.live → s'.state.live → s.place = s'.place → s = s' :=
  ⟨by decide +kernel, memory_exclusive_binding .usual handedOn (by decide +kernel)⟩

theorem released_twice :
    ((after (step .usual) start (handedOn ++ released "a" ++ bind "c")).db.sessions.rows.map
        fun s => (s.sessionId, s.state, s.place)) =
      [("a", .invalid, "host", "slot-1"), ("b", .active, "host", "slot-1"), ("c", .active, "host", "slot-1")] := by
  decide +kernel

end LeafWeb.Executor.Memory
