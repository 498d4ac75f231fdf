import LeafWeb.Executor.ControlPlane
import LeafWeb.Executor.Reclaim

namespace LeafWeb.Executor

open Lib Transition Table List Option

def onActiveHost (t : Authority) (r : SlotRow) : Prop := (t.hosts.find r.hostId).any fun h => h.state = .active
  deriving Decidable

def SlotState.taken : SlotState → Bool
  | .claimed | .releasing => true
  | .starting | .ready | .draining | .revoked => false

/-- A live binding that the reclaim query will come to select. -/
def Expiring (idleBefore : Option ℤ) (s : Session) : Prop :=
  s.state.live ∧ (s.expiresAt.isSome ∨ idleBefore.any fun b => s.lastActivityAt.any fun a => a ≤ b)
  deriving Decidable

/-- A session holds the slot under the claim, and it expires or its release is pending. -/
def Recoverable (t : Authority) (idleBefore : Option ℤ) (r : SlotRow) : Prop :=
  ∃ s ∈ t.sessions.rows, s.place = r.place ∧ r.currentClaimId = some s.claimId ∧
    (Expiring idleBefore s ∨ r.state = .releasing ∧ pending t s.sessionId)
  deriving Decidable

variable {t t' : Authority} {now dbNow : ℤ} {event : ℕ} {found : List Session} {r : SlotRow} {idle : Option ℤ}

section

variable (hps : ∀ s ∈ t.sessions.rows, ∀ e ∈ s.expiresAt, e ≤ now)

include hps

lemma mem_eligible {s : Session} (hs : s ∈ t.sessions.rows) :
    s.sessionId ∈ eligible t now idle (fun _ => false) ↔ Expiring idle s := by
  have hep : (s.expiresAt.any fun e => e ≤ now) = s.expiresAt.isSome := by
    cases he : s.expiresAt with
    | none => rfl
    | some e => simpa using hps s hs e (by rw [he]; rfl)
  have hi : reclaimable now idle s ↔ Expiring idle s := by
    rw [reclaimable, hep, Bool.and_eq_true, Bool.or_eq_true]
    rfl
  rw [← hi]
  constructor
  · intro h
    obtain ⟨s', hf, hid, hr⟩ := eligible_found h
    rwa [← t.sessions.eq_of_key (mem_of_find hf) hs hid]
  · intro h
    exact mem_map_of_mem (mem_filter.mpr ⟨hs, by simpa using h⟩)

lemma heldBy_eligible (idle : Option ℤ) :
    HeldBy (among t (eligible t now idle fun _ => false)) r ↔ ∃ s ∈ t.sessions.rows,
      s.place = r.place ∧ r.currentClaimId = some s.claimId ∧ Expiring idle s := by
  constructor
  · rintro ⟨s, hs, hp, hc⟩
    obtain ⟨hs, hid⟩ := mem_filter.mp hs
    exact ⟨s, hs, hp, hc, (mem_eligible hps hs).mp (of_decide_eq_true hid)⟩
  · rintro ⟨s, hs, hp, hc, he⟩
    exact ⟨s, mem_filter.mpr ⟨hs, decide_eq_true ((mem_eligible hps hs).mpr he)⟩, hp, hc⟩

variable (hrm : Reclaimed t (eligible t now idle fun _ => false) t')
  (hfn : ∀ s, s ∈ found ↔ t'.sessions.find s.sessionId = some s ∧ pending t' s.sessionId)

include hrm hfn

lemma heldBy_found :
    HeldBy found r ↔ ∃ s ∈ t.sessions.rows, s.place = r.place ∧ r.currentClaimId = some s.claimId ∧
      (Expiring idle s ∨ pending t s.sessionId) := by
  constructor
  · rintro ⟨s', hs', hp, hc⟩
    obtain ⟨hf, o, ho, hid, hop⟩ := (hfn s').mp hs'
    rw [hrm.sessions] at hf
    obtain ⟨s, hs, heq⟩ := map_eq_some_iff.mp hf
    have hk : s.sessionId = s'.sessionId := find_key hs
    have hs := mem_of_find hs
    have hsm : s'.place = s.place ∧ s'.claimId = s.claimId := by
      rw [← heq]
      split_ifs <;> exact ⟨rfl, rfl⟩
    refine ⟨s, hs, hsm.1 ▸ hp, hsm.2 ▸ hc, ?_⟩
    rcases hrm.added o ho with hold | ⟨-, hm⟩
    · exact .inr ⟨o, hold, hid.trans hk.symm, hop⟩
    refine .inl ((mem_eligible hps hs).mp ?_)
    rw [hk, ← hid]
    exact hm
  · rintro ⟨s, hs, hp, hc, hw⟩
    have hf : t.sessions.find s.sessionId = some s := find_some.mpr ⟨hs, rfl⟩
    have hpn : pending t' s.sessionId := by
      rcases hw with he | ⟨o, ho, hop⟩
      · exact hrm.asked _ ((mem_eligible hps hs).mpr he) (by rw [hf]; rfl)
      · exact ⟨o, hrm.kept o ho, hop⟩
    have hf' := hrm.sessions s.sessionId
    rw [hf, map_some] at hf'
    split_ifs at hf' with hm
    · exact ⟨s.invalidate, (hfn _).mpr ⟨hf', hpn⟩, hp, hc⟩
    · exact ⟨s, (hfn _).mpr ⟨hf', hpn⟩, hp, hc⟩

lemma slot_after_sweep (dbNow : ℤ) (hr : t.slots.find r.place = some r) :
    ∃ r', (completeAll t' dbNow found).slots.find r.place = some r' ∧ r'.hostId = r.hostId ∧
      (r'.state.taken ↔ r.state.taken ∧ ¬Recoverable t idle r) := by
  have hcm := (completeAll_eq (t := t') dbNow found fun s hs => ((hfn s).mp hs).1).2 r.place
  rw [hrm.slots, hr, map_some, map_some] at hcm
  refine ⟨_, hcm, ?_⟩
  have hh := heldBy_eligible (r := r) hps idle
  have hfd := heldBy_found (r := r) hps hrm hfn
  by_cases hv : r.state = .claimed ∧ HeldBy (among t (eligible t now idle fun _ => false)) r
  · obtain ⟨s, hs, hp, hc, he⟩ := hh.mp hv.2
    have hb : HeldBy found r.vacate := hfd.mpr ⟨s, hs, hp, hc, .inl he⟩
    rw [if_pos hv, if_pos ⟨rfl, hb⟩]
    have hrc : Recoverable t idle r := ⟨s, hs, hp, hc, .inl he⟩
    exact ⟨rfl, by simp [SlotRow.free, SlotState.taken, hrc]⟩
  · rw [if_neg hv]
    by_cases hf : r.state = .releasing ∧ HeldBy found r
    · obtain ⟨s, hs, hp, hc, hw⟩ := hfd.mp hf.2
      have hrc : Recoverable t idle r := by
        refine ⟨s, hs, hp, hc, hw.imp_right ?_⟩
        exact fun hpn => ⟨hf.1, hpn⟩
      rw [if_pos hf]
      exact ⟨rfl, by simp [SlotRow.free, SlotState.taken, hrc]⟩
    · rw [if_neg hf]
      refine ⟨rfl, ⟨fun ht => ⟨ht, ?_⟩, And.left⟩⟩
      rintro ⟨s, hs, hp, hc, he | ⟨hrl, hpn⟩⟩
      · have hst : r.state = .claimed ∨ r.state = .releasing := by
          cases hst : r.state <;> simp_all [SlotState.taken]
        rcases hst with hcl | hrl
        · exact hv ⟨hcl, hh.mpr ⟨s, hs, hp, hc, he⟩⟩
        · exact hf ⟨hrl, hfd.mpr ⟨s, hs, hp, hc, .inl he⟩⟩
      · exact hf ⟨hrl, hfd.mpr ⟨s, hs, hp, hc, .inr hpn⟩⟩

end

theorem capacity_recovered_iff (t : Authority) (now dbNow : ℤ) (idleBefore : Option ℤ) (event : ℕ)
    (hp : ∀ s ∈ t.sessions.rows, ∀ e ∈ s.expiresAt, e ≤ now) (hfr : ∀ o ∈ t.outbox.rows, o.eventId < event) :
    ∃ found t', reclaimInstantSessions t now idleBefore (fun _ => false) dbNow event = .ok (found, t') ∧
      ((∀ r ∈ (completeAll t' dbNow found).slots.rows, onActiveHost (completeAll t' dbNow found) r →
          ¬r.state.taken) ↔
        ∀ r ∈ t.slots.rows, onActiveHost t r → r.state.taken → Recoverable t idleBefore r) := by
  obtain ⟨a, ha⟩ := fences_ok dbNow (eligible t now idleBefore fun _ => false) hfr
  obtain ⟨found, t', hok⟩ : ∃ found t', reclaimInstantSessions t now idleBefore (fun _ => false) dbNow event =
      .ok (found, t') := ⟨_, _, bind_eq_ok.mpr ⟨a, ha, rfl⟩⟩
  refine ⟨found, t', hok, ?_⟩
  obtain ⟨hrc, hfn⟩ := reclaim_eq_ok hok
  have hh : (completeAll t' dbNow found).hosts = t.hosts :=
    (completeAll_eq dbNow found fun s hs => ((hfn s).mp hs).1).1.trans hrc.hosts
  have hac : ∀ {r r' : SlotRow}, r'.hostId = r.hostId →
      (onActiveHost (completeAll t' dbNow found) r' ↔ onActiveHost t r) := by
    intro r r' hid
    rw [onActiveHost, onActiveHost, hh, hid]
  constructor
  · intro h r hr hon ht
    obtain ⟨r', hf, hid, hi⟩ := slot_after_sweep hp hrc hfn dbNow (find_some.mpr ⟨hr, rfl⟩)
    by_contra hn
    exact h r' (mem_of_find hf) ((hac hid).mpr hon) (hi.mpr ⟨ht, hn⟩)
  · intro h r' hr' hon ht
    have hf' : (completeAll t' dbNow found).slots.find r'.place = some r' := find_some.mpr ⟨hr', rfl⟩
    have hsl := (completeAll_eq (t := t') dbNow found fun s hs => ((hfn s).mp hs).1).2 r'.place
    rw [hf', hrc.slots, Option.map_map] at hsl
    obtain ⟨r, hr, -⟩ := map_eq_some_iff.mp hsl.symm
    have hk : r.place = r'.place := find_key hr
    obtain ⟨r'', hf'', hid, hi⟩ := slot_after_sweep hp hrc hfn dbNow (hk ▸ hr)
    rw [hk, hf'] at hf''
    obtain rfl := some.inj hf''
    obtain ⟨hb, hn⟩ := hi.mp ht
    exact hn (h r (mem_of_find hr) ((hac hid).mp hon) hb)

def Settings.usual : Settings := ⟨30, 60⟩

def Request.sample : Request := ⟨"tenant", "session", "sha256:c", "sha256:a", "sha256:a", "tool", true⟩

def Turn.smooth (now : ℤ) (slotId : String) : Turn := ⟨now, now, some ("host", slotId), fun _ => false, true, true⟩

def hostReady (slotIds : List String) : List Event :=
  .host (.register "host" "https://10.0.0.1:8088" slotIds 0) ::
    slotIds.map fun slotId => .host (.readiness "host" slotId true "sha256:a" "sha256:r")

def works (worker : ℕ) (job : Job) (turn : Turn) (steps : ℕ) : List Event :=
  .start worker job :: replicate steps (.resume worker turn)

def assigned : List Event := hostReady ["slot-1"] ++ works 0 (.assign .sample) (.smooth 0 "slot-1") 5

theorem assigned_slot_recovered :
    let t := (after (Plane.step .usual) .empty assigned).db
    ∃ found t', reclaimInstantSessions t 1000 none (fun _ => false) 1000 100 = .ok (found, t') ∧
      ∀ r ∈ (completeAll t' 1000 found).slots.rows, onActiveHost (completeAll t' 1000 found) r →
        ¬r.state.taken := by
  obtain ⟨found, t', hok, hi⟩ := capacity_recovered_iff (after (Plane.step .usual) .empty assigned).db
    1000 1000 none 100 (by decide +kernel) (by decide +kernel)
  exact ⟨found, t', hok, hi.mpr (by decide +kernel)⟩

theorem crashed_claim_leaks :
    let t := (after (Plane.step .usual) .empty
      (hostReady ["slot-1"] ++ works 0 (.assign .sample) (.smooth 0 "slot-1") 2 ++ [.crash 0])).db
    (∀ c ∈ t.claims.rows, c.expiresAt ≤ 1000) ∧ t.sessions.rows = [] ∧
      (reclaimInstantSessions t 1000 none (fun _ => false) 1000 100).toOption.map (fun a =>
        (completeAll a.2 1000 a.1).slots.rows.map fun r =>
          (decide (onActiveHost (completeAll a.2 1000 a.1) r), r.state)) =
        some [(true, .claimed)] := by
  decide +kernel

end LeafWeb.Executor
