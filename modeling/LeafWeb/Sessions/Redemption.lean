import LeafWeb.Lib.Transition
import Mathlib.Data.Rat.Defs

namespace LeafWeb.Sessions

open Lib Transition Function

/-- One row of `approvals`; `rest` is what is only compared between the stores. -/
structure Approval (Rest : Type) where
  (sessionId tenantId : String)
  decided : Bool
  decidedBy : Option String
  expiresAt : Option ℚ
  consumed : Bool
  rest : Rest
deriving DecidableEq

structure Confirm where
  (confirmationId sessionId tenantId : String)
  decidedBy : Option String

inductive ConsumeError
  | notFound
  | undecided
  | alreadyConsumed
  | expired

variable {Rest : Type} {c : Confirm}

/-- Both stores check in this order inside one transaction. -/
def consumeApproval (c : Confirm) (now : ℚ) : Option (Approval Rest) → Except ConsumeError (Approval Rest)
  | none => .error .notFound
  | some row =>
    if row.sessionId ≠ c.sessionId ∨ row.tenantId ≠ c.tenantId then .error .notFound
    else if !row.decided then .error .undecided
    else if c.decidedBy.isSome ∧ row.decidedBy ≠ c.decidedBy then .error .notFound
    else if row.consumed then .error .alreadyConsumed
    else if row.expiresAt.any (· < now) then .error .expired
    else .ok { row with consumed := true }

def unconsumeApproval (c : Confirm) : Option (Approval Rest) → Bool × Option (Approval Rest)
  | none => (false, none)
  | some row =>
    if row.sessionId = c.sessionId ∧ row.tenantId = c.tenantId ∧ row.consumed then
      (true, some { row with consumed := false })
    else (false, some row)

inductive Backend
  | legacy
  | postgres
deriving DecidableEq

inductive Mode
  | legacy
  | dualWrite
  | dualWriteShadow
  | shadow
  | postgres

def Mode.gate : Mode → Backend
  | .postgres => .postgres
  | _ => .legacy

def Mode.dual : Mode → Bool
  | .dualWrite | .dualWriteShadow => true
  | _ => false

variable {mode : Mode} {now : ℚ} {row : Approval Rest} {stored : Option (Approval Rest)}

lemma gate_of_dual (h : mode.dual) : mode.gate = .legacy := by
  cases mode <;> trivial

abbrev Rows (Rest : Type) := String → Option (Approval Rest)

abbrev Stores (Rest : Type) := Backend → Rows Rest

def Stores.set (stores : Stores Rest) (b : Backend) (c : Confirm) (stored : Option (Approval Rest)) :
    Stores Rest := update stores b (update (stores b) c.confirmationId stored)

/-- Where a request stands, named by the call it has made last. -/
inductive Phase (Rest : Type)
  | idle
  | asked (c : Confirm)
  | seen (c : Confirm) (postgres : Bool)
  | compared (c : Confirm)
  | mirroring (c : Confirm) (legacy : Approval Rest)
  | holding (c : Confirm)
  | started (c : Confirm)
  | releasing (c : Confirm)
  | freed (c : Confirm) (postgres : Bool)
  | ended

inductive Action
  | confirm (c : Confirm)
  | call (now : ℚ)
  | turn (started : Bool)

inductive Reply
  | refused (reason : ConsumeError)
  | mismatch (label : String)
  | started
  | notStarted (recovered : Bool)

/-- One atomic step of a request. An exception of the second store undoes nothing in the first. -/
def act [DecidableEq Rest] (mode : Mode) (stores : Stores Rest) :
    Phase Rest → Action → Option Reply × Phase Rest × Stores Rest
  | .idle, .confirm c => if mode.dual then (none, .asked c, stores) else (none, .compared c, stores)
  | .asked c, .call _ => (none, .seen c (stores .postgres c.confirmationId).isSome, stores)
  | .seen c postgres, .call _ =>
    if (stores .legacy c.confirmationId).isSome = postgres then (none, .compared c, stores)
    else (some (.mismatch "approval presence"), .ended, stores)
  | .compared c, .call now =>
    match consumeApproval c now (stores mode.gate c.confirmationId) with
    | .error reason => (some (.refused reason), .ended, stores)
    | .ok row =>
      if mode.dual then (none, .mirroring c row, stores.set mode.gate c (some row))
      else (none, .holding c, stores.set mode.gate c (some row))
  | .mirroring c legacy, .call now =>
    match consumeApproval c now (stores .postgres c.confirmationId) with
    | .error reason => (some (.refused reason), .ended, stores)
    | .ok row =>
      if legacy = row then (none, .holding c, stores.set .postgres c (some row))
      else (some (.mismatch "approval consumption"), .ended, stores.set .postgres c (some row))
  | .holding c, .turn true => (some .started, .started c, stores)
  | .holding c, .turn false => (none, .releasing c, stores)
  | .releasing c, .call _ =>
    if mode.dual then
      let (flipped, stored) := unconsumeApproval c (stores .postgres c.confirmationId)
      (none, .freed c flipped, stores.set .postgres c stored)
    else
      let (flipped, stored) := unconsumeApproval c (stores mode.gate c.confirmationId)
      (some (.notStarted flipped), .ended, stores.set mode.gate c stored)
  | .freed c postgres, .call _ =>
    let (flipped, stored) := unconsumeApproval c (stores .legacy c.confirmationId)
    (some (.notStarted (flipped = postgres ∧ flipped)), .ended, stores.set .legacy c stored)
  | phase, _ => (none, phase, stores)

structure State (Rest : Type) where
  stores : Stores Rest
  phases : ℕ → Phase Rest

def initial (rows : Rows Rest) : State Rest := ⟨fun _ => rows, fun _ => .idle⟩

def step [DecidableEq Rest] (mode : Mode) (s : State Rest) (e : ℕ × Action) : Option Reply × State Rest :=
  let (reply, phase, stores) := act mode s.stores (s.phases e.1) e.2
  (reply, ⟨stores, update s.phases e.1 phase⟩)

def Phase.owns : Phase Rest → Option String
  | .mirroring c _ | .holding c | .started c | .releasing c | .freed c _ => some c.confirmationId
  | _ => none

def Phase.quiet : Phase Rest → Bool
  | .idle | .started _ | .ended => true
  | _ => false

/-- The second store is asked before the row that the first one consumed expires. -/
def Phase.inTime : Phase Rest → Action → Bool
  | .mirroring _ legacy, .call now => !legacy.expiresAt.any (· < now)
  | _, _ => true

def spent (stored : Option (Approval Rest)) : Prop := stored.map Approval.consumed = some true

lemma set_apply (stores : Stores Rest) (b b' : Backend) (id : String) :
    stores.set b c stored b' id = if b' = b ∧ id = c.confirmationId then stored else stores b' id := by
  by_cases hb : b' = b
  · subst hb
    simp [Stores.set, update_apply]
  · simp [Stores.set, hb]

lemma consume_ok (h : consumeApproval c now stored = .ok row) : ¬spent stored ∧ spent (some row) := by
  cases stored with
  | none => cases h
  | some r =>
    unfold consumeApproval at h
    grind [spent]

lemma consume_later (h : consumeApproval c now stored = .ok row) (later : ℚ) :
    consumeApproval c later stored = if row.expiresAt.any (· < later) then .error .expired else .ok row := by
  cases stored with
  | none => cases h
  | some r =>
    unfold consumeApproval at h ⊢
    grind

section

variable {stores : Stores Rest} {p : Phase Rest} {a : Action} {id : String}
  {legacy postgres : Option (Approval Rest)}

structure Kept (mode : Mode) (stores : Stores Rest) (p : Phase Rest) (r : Phase Rest × Stores Rest) : Prop where
  frame : ∀ b id, p.owns ≠ some id → r.1.owns ≠ some id → r.2 b id = stores b id
  taken : ∀ id, r.1.owns = some id → p.owns ≠ some id → ¬spent (stores mode.gate id)
  spent : ∀ id, r.1.owns = some id → (p.owns = some id → spent (stores mode.gate id)) → spent (r.2 mode.gate id)

def Link (id : String) (p : Phase Rest) (legacy postgres : Option (Approval Rest)) : Prop :=
  if p.owns = some id then
    match p with
    | .mirroring c row => legacy = some row ∧ ∃ now, consumeApproval c now postgres = .ok row
    | .freed c _ => postgres = (unconsumeApproval c legacy).2
    | _ => legacy = postgres
  else legacy = postgres

lemma link_quiet (hp : p.quiet) (h : Link id p legacy postgres) : legacy = postgres := by
  cases p <;> grind [Link, Phase.quiet]

variable [DecidableEq Rest]

lemma act_kept (mode : Mode) (stores : Stores Rest) (p : Phase Rest) (a : Action) :
    Kept mode stores p (act mode stores p a).2 := by
  fun_cases act mode stores p a
  all_goals constructor <;> grind [set_apply, Phase.owns, → consume_ok, gate_of_dual]

lemma act_link (hd : mode.dual) (ht : p.inTime a) (h : Link id p (stores .legacy id) (stores .postgres id)) :
    Link id (act mode stores p a).2.1 ((act mode stores p a).2.2 .legacy id)
      ((act mode stores p a).2.2 .postgres id) := by
  have hg := gate_of_dual hd
  fun_cases act mode stores p a <;> grind [set_apply, Phase.owns, Phase.inTime, Link, consume_later]

end

variable {s : State Rest} {e : ℕ × Action}

structure Single (mode : Mode) (s : State Rest) : Prop where
  apart : ∀ i j id, (s.phases i).owns = some id → (s.phases j).owns = some id → i = j
  spent : ∀ i id, (s.phases i).owns = some id → spent (s.stores mode.gate id)

def Agree (s : State Rest) : Prop :=
  ∀ i id, (∀ j, (s.phases j).owns = some id → j = i) →
    Link id (s.phases i) (s.stores .legacy id) (s.stores .postgres id)

lemma initial_single (rows : Rows Rest) : Single mode (initial rows) := ⟨nofun, nofun⟩

lemma initial_agree (rows : Rows Rest) : Agree (initial rows) := fun _ _ _ => rfl

lemma Agree.rows_eq (h : Single mode s) (ha : Agree s) (hq : ∀ i, (s.phases i).quiet) :
    s.stores .legacy = s.stores .postgres := by
  funext id
  by_cases hid : ∃ i, (s.phases i).owns = some id
  · obtain ⟨i, hi⟩ := hid
    exact link_quiet (hq i) (ha i id fun j hj => h.apart j i id hj hi)
  · exact link_quiet (hq 0) (ha 0 id fun j hj => (hid ⟨j, hj⟩).elim)

variable [DecidableEq Rest]

lemma step_single (e : ℕ × Action) (h : Single mode s) : Single mode (step mode s e).2 := by
  obtain ⟨i, a⟩ := e
  have kept := act_kept mode s.stores (s.phases i) a
  have other : ∀ j id, j ≠ i → (s.phases j).owns = some id →
      (act mode s.stores (s.phases i) a).2.1.owns ≠ some id := by
    intro j id hj ho hn
    by_cases hold : (s.phases i).owns = some id
    · exact hj (h.apart j i id ho hold)
    · exact kept.taken id hn hold (h.spent j id ho)
  constructor
  · intro j k id hj hk
    simp only [step] at hj hk
    grind [h.apart j k id]
  intro j id hj
  simp only [step, update_apply] at hj ⊢
  split at hj
  · exact kept.spent id hj (h.spent i id)
  rename_i hji
  rw [kept.frame _ id (fun hi => hji (h.apart j i id hj hi)) (other j id hji hj)]
  exact h.spent j id hj

lemma step_agree (hd : mode.dual) (h : Single mode s) (ha : Agree s)
    (ht : (s.phases e.1).inTime e.2) : Agree (step mode s e).2 := by
  obtain ⟨i, a⟩ := e
  intro k id hid
  simp only [step, update_apply] at hid ⊢
  by_cases hki : k = i
  · subst hki
    simp only [if_true]
    refine act_link hd ht (ha k id fun j hj => ?_)
    grind
  · have hn : (act mode s.stores (s.phases i) a).2.1.owns ≠ some id := by grind
    simp only [hki]
    by_cases hold : (s.phases i).owns = some id
    · have hl := act_link hd ht (ha i id fun j hj => h.apart j i id hj hold)
      have hk : (s.phases k).owns ≠ some id := fun hk => hki (h.apart k i id hk hold)
      simp only [Link, hn] at hl
      simp only [Link, hk, if_false]
      exact hl
    · have kept := act_kept mode s.stores (s.phases i) a
      rw [kept.frame _ id hold hn, kept.frame _ id hold hn]
      exact ha k id (by grind)

/-- SQLite holds an approval as consumed that PostgreSQL holds as free, and nobody is to give it back. -/
def Stuck (s : State Rest) : Prop :=
  ∃ id, spent (s.stores .legacy id) ∧ ¬spent (s.stores .postgres id) ∧ ∀ i, (s.phases i).owns ≠ some id

lemma step_stuck (hd : mode.dual) (e : ℕ × Action) (h : Stuck s) : Stuck (step mode s e).2 := by
  obtain ⟨i, a⟩ := e
  obtain ⟨id, hl, hp, hf⟩ := h
  have kept := act_kept mode s.stores (s.phases i) a
  have hn : (act mode s.stores (s.phases i) a).2.1.owns ≠ some id := by
    intro hn
    apply kept.taken id hn (hf i)
    rwa [gate_of_dual hd]
  refine ⟨id, ?_, ?_, fun j => ?_⟩
  · simpa [step, kept.frame _ id (hf i) hn] using hl
  · simpa [step, kept.frame _ id (hf i) hn] using hp
  simp only [step, update_apply]
  split
  · exact hn
  · exact hf j

lemma late_stuck (h : Single mode s) (ha : Agree s) (ht : (s.phases e.1).inTime e.2 = false) :
    Stuck (step mode s e).2 := by
  obtain ⟨i, a⟩ := e
  obtain ⟨c, row, now, hp, rfl, hn⟩ : ∃ c row now, s.phases i = .mirroring c row ∧ a = .call now ∧
      row.expiresAt.any (· < now) := by
    unfold Phase.inTime at ht
    grind
  have ho : (s.phases i).owns = some c.confirmationId := by rw [hp]; rfl
  have hl := ha i _ fun j hj => h.apart j i _ hj ho
  rw [hp] at hl ho
  obtain ⟨hlg, before, hc⟩ := (if_pos ho).mp hl
  have he := consume_later hc now
  rw [if_pos hn] at he
  have hs : (step mode s (i, .call now)).2 = ⟨s.stores, update s.phases i .ended⟩ := by
    simp [step, hp, act, he]
  rw [hs]
  refine ⟨c.confirmationId, ?_, (consume_ok hc).1, fun j hj => ?_⟩
  · exact hlg ▸ (consume_ok hc).2
  simp only [update_apply] at hj
  split at hj
  · cases hj
  · exact ‹j ≠ i› (h.apart j i _ hj (hp ▸ ho))

lemma stuck_of_late {events : List (ℕ × Action)} (hd : mode.dual) (h : Single mode s) (ha : Agree s)
    (hl : ¬Along (step mode) (fun s e => (s.phases e.1).inTime e.2) s events) :
    Stuck (after (step mode) s events) := by
  induction events generalizing s with
  | nil => exact (hl trivial).elim
  | cons e events ih =>
    by_cases ht : (s.phases e.1).inTime e.2
    · exact ih (step_single e h) (step_agree hd h ha ht) fun hin => hl ⟨ht, hin⟩
    · exact invariant (late_stuck h ha (by simpa using ht)) (fun _ e => step_stuck hd e) events

theorem approval_redeemed_once (mode : Mode) (rows : Rows Rest) (events : List (ℕ × Action)) :
    let s := after (step mode) (initial rows) events
    (∀ i j c d, s.phases i = .started c → s.phases j = .started d → c.confirmationId = d.confirmationId → i = j) ∧
    (mode.dual → (∀ i, (s.phases i).quiet) →
      ((∀ id, (s.stores .legacy id).map Approval.consumed = (s.stores .postgres id).map Approval.consumed) ↔
        Along (step mode) (fun s e => (s.phases e.1).inTime e.2) (initial rows) events)) := by
  intro s
  have single : Single mode s := invariant (initial_single rows) (fun _ e => step_single e) events
  constructor
  · intro i j c d hi hj hcd
    exact single.apart i j c.confirmationId (by rw [hi]; rfl) (by rw [hj, hcd]; rfl)
  intro hd hq
  constructor
  · intro hr
    by_contra hlt
    obtain ⟨id, hl, hp, -⟩ := stuck_of_late hd (initial_single rows) (initial_agree rows) hlt
    exact hp ((hr id).symm.trans hl)
  · intro hin id
    have agree := invariant_along (I := fun s => Single mode s ∧ Agree s)
      ⟨initial_single rows, initial_agree rows⟩
      (fun _ e h ht => ⟨step_single e h.1, step_agree hd h.1 h.2 ht⟩) events hin
    rw [agree.2.rows_eq single hq]

def decidedApproval : Approval Unit := ⟨"s", "t", true, none, some 1, false, ()⟩

def retried : List (ℕ × Action) :=
  [(0, .confirm ⟨"a", "s", "t", none⟩), (1, .confirm ⟨"a", "s", "t", none⟩), (0, .call 0), (0, .call 0),
    (0, .call 0), (1, .call 0), (0, .call 0), (0, .turn false), (0, .call 0), (0, .call 0),
    (1, .call 1), (1, .call 1), (1, .call 1), (1, .turn true)]

theorem second_request_redeems :
    let s := after (step .dualWrite) (initial fun _ => some decidedApproval) retried
    (∀ j d, s.phases j = .started d → d.confirmationId = "a" → j = 1) ∧
      ∀ id, (s.stores .legacy id).map Approval.consumed = (s.stores .postgres id).map Approval.consumed := by
  have once := approval_redeemed_once .dualWrite (fun _ => some decidedApproval) retried
  refine ⟨fun j d hj hd => (once.1 1 j _ d rfl hj hd.symm).symm, (once.2 rfl fun i => ?_).mpr (by decide)⟩
  by_cases h0 : i = 0
  · subst h0
    decide
  by_cases h1 : i = 1
  · subst h1
    decide
  · simp only [retried, after_cons, after_nil, step, update_of_ne h0, update_of_ne h1]
    rfl

theorem expired_between_the_stores :
    let s := after (step .dualWrite) (initial fun _ => some decidedApproval)
      [(0, .confirm ⟨"a", "s", "t", none⟩), (0, .call 0), (0, .call 0), (0, .call 1), (0, .call 2)]
    (∀ i, (s.phases i).quiet) ∧ s.stores .legacy "a" = some { decidedApproval with consumed := true } ∧
      s.stores .postgres "a" = some decidedApproval := by
  intro s
  refine ⟨fun i => ?_, by decide, by decide⟩
  by_cases hi : i = 0
  · subst hi
    decide
  · simp only [s, after_cons, after_nil, step, update_of_ne hi]
    rfl

end LeafWeb.Sessions
