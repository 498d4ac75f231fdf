import LeafWeb.Store.Postgres.Authority

/-! Concurrent `_pg_put` calls, each in three phases with other transactions in between. -/

namespace LeafWeb.Store.Postgres

open Lib Procedure Transition

inductive Phase
  | idle
  | uploading (r : Reservation)
  | uploaded (r : Reservation)
  | failing (r : Reservation)
  | lost (r : Reservation)
  | ended

def Phase.live : Phase → Option Reservation
  | .uploading r | .uploaded r => some r
  | _ => none

def Phase.holds : Phase → Option Reservation
  | .uploading r | .uploaded r | .failing r => some r
  | _ => none

structure State where
  db : Db
  calls : ℕ → Phase

def State.set (s : State) (id : ℕ) (p : Phase) : State :=
  { s with calls := Function.update s.calls id p }

inductive Event
  | reserve (id : ℕ) (a : PutArgs) (now later : Time)
  | upload (id : ℕ) (stored : Bool)
  | markOrphaned (id : ℕ)
  | finalize (id : ℕ) (note : Option String) (clock : Time)
  | finalizeRaises (id : ℕ)
  | lookupApply (id : ℕ) (bundle : Except StoreError Unit)
  | crash (id : ℕ)
  | undo (holder : Option String) (fence : Option ℤ) (now : Time) (bundle : Except StoreError Unit)
  | redo (holder : Option String) (fence : Option ℤ) (now : Time) (bundle : Except StoreError Unit)
  | acquire (holder : String) (ttl : ℤ) (expectedFence : Option ℤ) (strictOwner : Bool)
      (now started : Time)
  | release (holder : Option String) (expectedFence : Option ℤ) (now : Time)

inductive Answer
  | reserved (v : ℤ)
  | replayed (v : ℤ)
  | stored
  | orphaned
  | published (v : ℤ)
  | lost
  | moved (v : ℤ)
  | generation (g : Option ℤ)
  | cleared (b : Bool)
  | crashed
  | notEnabled
  deriving DecidableEq

def State.transact {α : Type} (s : State) (answer : α → Answer) :
    Except StoreError (α × Db) → Except StoreError Answer × State
  | .error e => (.error e, s)
  | .ok (a, db) => (.ok (answer a), { s with db := db })

def headChanged : StoreError := .valueError "drawing head changed while the immutable version was stored"

def State.lose (s : State) (id : ℕ) (r : Reservation) : Except StoreError Answer × State :=
  -- After a finalize that found head or lease changed, a graph commit looks for its own retry.
  if r.bundle then (.ok .lost, s.set id (.lost r)) else (.error headChanged, s.set id .ended)

section

variable (auth : Authority)

def step (s : State) : Event → Except StoreError Answer × State
  | .reserve id a now later =>
    match s.calls id with
    | .idle =>
      match reserve auth a now later s.db with
      | .error e => (.error e, s.set id .ended)
      | .ok (.inl v) => (.ok (.replayed v), s.set id .ended)
      | .ok (.inr (r, db)) => (.ok (.reserved r.version), { s.set id (.uploading r) with db := db })
    | _ => (.ok .notEnabled, s)
  | .upload id stored =>
    match s.calls id with
    | .uploading r =>
      if stored then (.ok .stored, s.set id (.uploaded r))
      else (.error .backendFault, s.set id (.failing r))
    | _ => (.ok .notEnabled, s)
  | .markOrphaned id =>
    match s.calls id with
    | .failing r => (.ok .orphaned, { s.set id .ended with db := s.db.orphan r.version })
    | _ => (.ok .notEnabled, s)
  | .finalize id note clock =>
    match s.calls id with
    | .uploaded r =>
      match finalize r note clock s.db with
      | (true, db) => (.ok (.published r.version), { s.set id .ended with db := db })
      | (false, db) => { s with db := db }.lose id r
    | _ => (.ok .notEnabled, s)
  | .finalizeRaises id =>
    match s.calls id with
    | .uploaded _ => (.error .backendFault, s.set id .ended)
    | _ => (.ok .notEnabled, s)
  | .lookupApply id bundle =>
    match s.calls id with
    | .lost r =>
      match publishedApply auth s.db r with
      | none => (.error headChanged, s.set id .ended)
      | some e =>
        match bundle with
        | .error err => (.error err, s.set id .ended)
        | .ok _ => (.ok (.replayed e.version), s.set id .ended)
    | _ => (.ok .notEnabled, s)
  | .crash id => (.ok .crashed, s.set id .ended)
  | .undo holder fence now bundle => s.transact .moved (undo auth holder fence now bundle s.db)
  | .redo holder fence now bundle => s.transact .moved (redo auth holder fence now bundle s.db)
  | .acquire holder ttl expectedFence strictOwner now started =>
    s.transact .generation (acquireCheckoutFence auth holder ttl expectedFence strictOwner now started s.db)
  | .release holder expectedFence now =>
    s.transact .cleared (releaseCheckout auth holder expectedFence now s.db)

end

def Retires (s s' : State) : Prop :=
  ∀ id, (s'.calls id).live = (s.calls id).live ∧ (s'.calls id).holds = (s.calls id).holds ∨
    (s'.calls id).live = none ∧ ((s'.calls id).holds = (s.calls id).holds ∨ (s'.calls id).holds = none)

def handsOut : Except StoreError Answer → Option ℤ
  | .ok (.reserved v) => some v
  | _ => none

def Answer.isPublished : Except StoreError Answer → Bool
  | .ok (.published _) => true
  | _ => false

inductive Effect (auth : Authority) (s : State) : Event → Except StoreError Answer → State → Prop
  | quiet {e : Event} {r : Except StoreError Answer} {s' : State} (hdb : s'.db = s.db)
      (hcalls : Retires s s') (hout : handsOut r = none) (hpub : Answer.isPublished r = false) :
      Effect auth s e r s'
  | reserved {id : ℕ} {a : PutArgs} {now later : Time} {row : ManifestRow} {head : ℤ}
      {co : CheckoutColumns} {t : Table VersionRow.version} (hidle : s.calls id = .idle)
      (hrow : s.db.manifest = some row) (hhead : row.head = some head)
      (hco : row.checkout = some co) (hlive : now < co.expiresAt)
      (hrange : 1 ≤ row.latest + 1 ∧ row.latest + 1 ≤ 99999999)
      (ht : s.db.versions.insert ⟨row.latest + 1, some head, a.workitemId, a.note, .reserved⟩ = some t) :
      Effect auth s (.reserve id a now later) (.ok (.reserved (row.latest + 1)))
        { s.set id (.uploading ⟨row.latest + 1, head, co.holder, row.checkoutFence, a.bundle,
            a.workitemId, a.note⟩) with db := ⟨some { row with latest := row.latest + 1 }, t⟩ }
  | orphaned {e : Event} {id : ℕ} {r : Reservation} {ans : Except StoreError Answer} {s' : State}
      (hcall : (s.calls id).holds = some r) (hdb : s'.db = s.db.orphan r.version)
      (hcalls : ∀ id', id' ≠ id → s'.calls id' = s.calls id')
      (hgone : (s'.calls id).holds = none ∧ (s'.calls id).live = none)
      (hout : handsOut ans = none) (hpub : Answer.isPublished ans = false) : Effect auth s e ans s'
  | published {id : ℕ} {note : Option String} {clock : Time} {r : Reservation} {row : ManifestRow}
      (hcall : s.calls id = .uploaded r) (hrow : s.db.manifest = some row)
      (hfenced : fencedHead row r clock = true) :
      Effect auth s (.finalize id note clock) (.ok (.published r.version))
        { s.set id .ended with db := (s.db.setHead row r.version).publish r.version note }
  | undone {holder : Option String} {fence : Option ℤ} {now : Time} {bundle : Except StoreError Unit}
      {row : ManifestRow} {head parent : ℤ} {v : VersionRow} (hrow : s.db.manifest = some row)
      (hhead : row.head = some head) (hready : s.db.readyRow head = some v)
      (hparent : v.parentVersion = some parent)
      (hauth : authorizeCheckoutRow row holder fence now "undo" = .ok ())
      (hverify : verifySelectedBundle auth s.db parent bundle = .ok ()) :
      Effect auth s (.undo holder fence now bundle) (.ok (.moved parent))
        { s with db := s.db.setHead row parent }
  | redone {holder : Option String} {fence : Option ℤ} {now : Time} {bundle : Except StoreError Unit}
      {row : ManifestRow} {head latest target : ℤ} (hrow : s.db.manifest = some row)
      (hhead : row.head = some head)
      (hauth : authorizeCheckoutRow row holder fence now "redo" = .ok ())
      (hmax : s.db.maxReady = some latest) (hne : head ≠ latest)
      (htarget : redoTarget s.db head latest = some target)
      (hverify : verifySelectedBundle auth s.db target bundle = .ok ()) :
      Effect auth s (.redo holder fence now bundle) (.ok (.moved target))
        { s with db := s.db.setHead row target }
  | leased {e : Event} {row row' : ManifestRow} {ans : Except StoreError Answer}
      (hrow : s.db.manifest = some row) (hhead : row'.head = row.head)
      (hlatest : row'.latest = row.latest) (hout : handsOut ans = none)
      (hpub : Answer.isPublished ans = false) :
      Effect auth s e ans { s with db := { s.db with manifest := some row' } }

variable {auth : Authority} {s : State}

lemma retires_refl (s : State) : Retires s s := fun _ => .inl ⟨rfl, rfl⟩

variable {e : Event} {db db' : Db} {row : ManifestRow} {now : Time} {r ans : Except StoreError Answer}
  {head : ℤ}

lemma quiet_same (ho : handsOut r = none) (hp : Answer.isPublished r = false) : Effect auth s e r s :=
  .quiet rfl (retires_refl s) ho hp

lemma quiet_set (id : ℕ) (p : Phase)
    (h : p.live = (s.calls id).live ∧ p.holds = (s.calls id).holds ∨ p.live = none ∧
      (p.holds = (s.calls id).holds ∨ p.holds = none))
    (ho : handsOut r = none) (hp : Answer.isPublished r = false) : Effect auth s e r (s.set id p) := by
  refine .quiet rfl (fun id' => ?_) ho hp
  by_cases hid : id' = id
  · subst hid
    simpa [State.set] using h
  · simp [State.set, hid]

lemma selectManifest_ok (h : selectManifest auth db = .ok row) : db.manifest = some row := by
  unfold selectManifest at h
  split at h
  · cases h
    assumption
  · cases h

lemma currentHead_ok (h : currentHead auth row = .ok head) : row.head = some head := by
  unfold currentHead at h
  split at h
  · cases h
    assumption
  · cases h

lemma requireActive_ok {co : CheckoutColumns} (h : requireActive row now = .ok co) : row.checkout = some co ∧
    now < co.expiresAt := by
  unfold requireActive at h
  split at h
  · cases h
  rename_i co' hco
  split_ifs at h with he
  cases h
  exact ⟨hco, not_le.mp he⟩

lemma insertVersion_ok {t : Table VersionRow.version} {r : VersionRow} (h : insertVersion db r = .ok t) :
    db.versions.insert r = some t := by
  unfold insertVersion at h
  split at h
  · cases h
    assumption
  · cases h

lemma reserve_effect (id : ℕ) (a : PutArgs) (now later : Time) :
    Effect auth s (.reserve id a now later) (step auth s (.reserve id a now later)).1
      (step auth s (.reserve id a now later)).2 := by
  simp only [step]
  split
  next hi =>
    split
    · exact quiet_set id _ (.inr ⟨rfl, .inr rfl⟩) rfl rfl
    · exact quiet_set id _ (.inr ⟨rfl, .inr rfl⟩) rfl rfl
    rename_i r db hr
    obtain ⟨row, hrow, hr⟩ := except_bind_ok hr
    obtain ⟨head, hh, hr⟩ := except_bind_ok hr
    obtain ⟨co, hco, hr⟩ := except_bind_ok hr
    obtain ⟨_, _, hr⟩ := except_bind_ok hr
    obtain ⟨prior, _, hr⟩ := except_bind_ok hr
    split at hr
    · cases hr
    split_ifs at hr
    cases hn : reserveNext a row head co s.db with
    | error e =>
      rw [hn] at hr
      cases hr
    | ok x =>
      rw [hn] at hr
      cases hr
      obtain ⟨key, hk, hn⟩ := except_bind_ok hn
      obtain ⟨t, ht, hn⟩ := except_bind_ok hn
      cases hn
      obtain ⟨hco, hl⟩ := requireActive_ok hco
      exact .reserved hi (selectManifest_ok hrow) (currentHead_ok hh) hco hl
        (drawingVersionKey_ok hk) (insertVersion_ok ht)
  · exact quiet_same rfl rfl

lemma finalize_cases (r : Reservation) (note : Option String) (clock : Time) (db : Db) :
    (∃ row, db.manifest = some row ∧ fencedHead row r clock = true ∧
      finalize r note clock db = (true, (db.setHead row r.version).publish r.version note)) ∨
    finalize r note clock db = (false, db.orphan r.version) := by
  unfold finalize
  cases hr : db.manifest with
  | none => exact .inr rfl
  | some row =>
    cases hf : fencedHead row r clock with
    | true => exact .inl ⟨row, rfl, hf, by simp [hf]⟩
    | false => exact .inr (by simp [hf])

lemma orphan_effect {p : Phase} {id : ℕ} {r : Reservation} (hc : (s.calls id).holds = some r)
    (hp : p.holds = none ∧ p.live = none) (ho : handsOut ans = none) (hpub : Answer.isPublished ans = false) :
    Effect auth s e ans { s.set id p with db := s.db.orphan r.version } := by
  refine .orphaned hc rfl (fun id' hid => ?_) ?_ ho hpub
  · simp [State.set, hid]
  · simpa [State.set] using hp

lemma finalize_effect (id : ℕ) (note : Option String) (clock : Time) :
    Effect auth s (.finalize id note clock) (step auth s (.finalize id note clock)).1
      (step auth s (.finalize id note clock)).2 := by
  simp only [step]
  split
  next r hc =>
    have hh : (s.calls id).holds = some r := by rw [hc]; rfl
    rcases finalize_cases r note clock s.db with ⟨row, hr, hf, heq⟩ | heq
    · rw [heq]
      exact .published hc hr hf
    rw [heq]
    simp only [State.lose]
    split_ifs
    all_goals exact orphan_effect hh ⟨rfl, rfl⟩ rfl rfl
  · exact quiet_same rfl rfl

variable {α : Type} {answer : α → Answer}

lemma transact_ok {ans : Answer} {tx : Except StoreError (α × Db)} (h : (s.transact answer tx).1 = .ok ans) :
    ∃ a db, tx = .ok (a, db) ∧ answer a = ans ∧ (s.transact answer tx).2 = { s with db := db } := by
  cases tx with
  | error e => cases h
  | ok x => exact ⟨x.1, x.2, rfl, Except.ok.inj h, rfl⟩

lemma transact_effect {tx : Except StoreError (α × Db)}
    (hok : ∀ a db, tx = .ok (a, db) → Effect auth s e (.ok (answer a)) { s with db := db }) :
    Effect auth s e (s.transact answer tx).1 (s.transact answer tx).2 := by
  cases tx with
  | error err => exact quiet_same rfl rfl
  | ok x => exact hok x.1 x.2 rfl

variable {holder : Option String} {fence : Option ℤ} {bundle : Except StoreError Unit} {parent target : ℤ}

lemma undo_ok (h : undo auth holder fence now bundle db = .ok (parent, db')) :
    ∃ row head v, db.manifest = some row ∧ row.head = some head ∧ db.readyRow head = some v ∧
      v.parentVersion = some parent ∧
      authorizeCheckoutRow row holder fence now "undo" = .ok () ∧
      verifySelectedBundle auth db parent bundle = .ok () ∧ db' = db.setHead row parent := by
  obtain ⟨row, hrow, h⟩ := except_bind_ok h
  obtain ⟨head, hh, h⟩ := except_bind_ok h
  split at h
  · cases h
  rename_i v hr
  obtain ⟨_, ha, h⟩ := except_bind_ok h
  split at h
  · cases h
  rename_i parent' hp
  obtain ⟨_, hv, h⟩ := except_bind_ok h
  cases h
  exact ⟨row, head, v, selectManifest_ok hrow, currentHead_ok hh, hr, hp, ha, hv, rfl⟩

lemma redo_ok (h : redo auth holder fence now bundle db = .ok (target, db')) :
    ∃ row head latest, db.manifest = some row ∧ row.head = some head ∧
      authorizeCheckoutRow row holder fence now "redo" = .ok () ∧ db.maxReady = some latest ∧
      head ≠ latest ∧ redoTarget db head latest = some target ∧
      verifySelectedBundle auth db target bundle = .ok () ∧ db' = db.setHead row target := by
  obtain ⟨row, hr, h⟩ := except_bind_ok h
  obtain ⟨head, hh, h⟩ := except_bind_ok h
  obtain ⟨_, ha, h⟩ := except_bind_ok h
  split at h
  · cases h
  rename_i latest hm
  split_ifs at h with hne
  split at h
  · cases h
  rename_i target' ht
  obtain ⟨_, hv, h⟩ := except_bind_ok h
  cases h
  exact ⟨row, head, latest, selectManifest_ok hr, currentHead_ok hh, ha, hm, hne, ht, hv, rfl⟩

lemma undo_effect (holder : Option String) (fence : Option ℤ) (now : Time) (bundle : Except StoreError Unit) :
    Effect auth s (.undo holder fence now bundle) (step auth s (.undo holder fence now bundle)).1
      (step auth s (.undo holder fence now bundle)).2 := by
  refine transact_effect fun v db h => ?_
  obtain ⟨row, head, v, hrow, hh, hr, hp, ha, hv, rfl⟩ := undo_ok h
  exact .undone hrow hh hr hp ha hv

lemma redo_effect (holder : Option String) (fence : Option ℤ) (now : Time) (bundle : Except StoreError Unit) :
    Effect auth s (.redo holder fence now bundle) (step auth s (.redo holder fence now bundle)).1
      (step auth s (.redo holder fence now bundle)).2 := by
  refine transact_effect fun v db h => ?_
  obtain ⟨row, head, latest, hr, hh, ha, hm, hne, ht, hv, rfl⟩ := redo_ok h
  exact .redone hr hh ha hm hne ht hv

lemma acquire_effect (holder : String) (ttl : ℤ) (expectedFence : Option ℤ) (strictOwner : Bool)
    (now started : Time) :
    Effect auth s (.acquire holder ttl expectedFence strictOwner now started)
      (step auth s (.acquire holder ttl expectedFence strictOwner now started)).1
      (step auth s (.acquire holder ttl expectedFence strictOwner now started)).2 := by
  refine transact_effect fun v db h => ?_
  unfold acquireCheckoutFence at h
  split_ifs at h
  obtain ⟨row, hr, h⟩ := except_bind_ok h
  split_ifs at h
  · cases h
    exact .leased (selectManifest_ok hr) rfl rfl rfl rfl
  · cases h
    exact quiet_same rfl rfl

lemma release_effect (holder : Option String) (expectedFence : Option ℤ) (now : Time) :
    Effect auth s (.release holder expectedFence now)
      (step auth s (.release holder expectedFence now)).1
      (step auth s (.release holder expectedFence now)).2 := by
  refine transact_effect fun v db h => ?_
  obtain ⟨row, hr, h⟩ := except_bind_ok h
  split at h
  · cases h
    exact quiet_same rfl rfl
  split_ifs at h
  · cases h
    exact .leased (selectManifest_ok hr) rfl rfl rfl rfl
  · cases h
    exact quiet_same rfl rfl

theorem step_effect (auth : Authority) (s : State) (e : Event) :
    Effect auth s e (step auth s e).1 (step auth s e).2 := by
  cases e with
  | reserve id a now later => exact reserve_effect id a now later
  | upload id stored =>
    simp only [step]
    split
    next r hc =>
      split_ifs
      · exact quiet_set id _ (.inl (by rw [hc]; exact ⟨rfl, rfl⟩)) rfl rfl
      · exact quiet_set id _ (.inr ⟨rfl, .inl (by rw [hc]; rfl)⟩) rfl rfl
    · exact quiet_same rfl rfl
  | markOrphaned id =>
    simp only [step]
    split
    next r hc =>
      exact orphan_effect (by rw [hc]; rfl) ⟨rfl, rfl⟩ rfl rfl
    · exact quiet_same rfl rfl
  | finalize id note clock => exact finalize_effect id note clock
  | finalizeRaises id =>
    simp only [step]
    split
    · exact quiet_set id _ (.inr ⟨rfl, .inr rfl⟩) rfl rfl
    · exact quiet_same rfl rfl
  | lookupApply id bundle =>
    simp only [step]
    split
    · split
      · exact quiet_set id _ (.inr ⟨rfl, .inr rfl⟩) rfl rfl
      · split
        all_goals exact quiet_set id _ (.inr ⟨rfl, .inr rfl⟩) rfl rfl
    · exact quiet_same rfl rfl
  | crash id => exact quiet_set id _ (.inr ⟨rfl, .inr rfl⟩) rfl rfl
  | undo holder fence now bundle => exact undo_effect holder fence now bundle
  | redo holder fence now bundle => exact redo_effect holder fence now bundle
  | acquire holder ttl expectedFence strictOwner now started =>
    exact acquire_effect holder ttl expectedFence strictOwner now started
  | release holder expectedFence now => exact release_effect holder expectedFence now

end LeafWeb.Store.Postgres
