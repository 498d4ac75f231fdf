import LeafWeb.Store.Postgres.Publication

namespace LeafWeb.Store.Postgres

open Lib Procedure Transition Table Function Option List Phase

variable {auth : Authority} {s s' : State} {e : Event} {ans : Except StoreError Answer} {db : Db} {v : ℤ}

def State.Ready (s : State) (v : ℤ) : Prop := (s.db.readyRow v).isSome deriving Decidable

def ingested (checkout : Option CheckoutColumns) (fence : ℤ) : State where
  db := {
    manifest := some ⟨some 1, 1, checkout, fence⟩
    versions := ⟨[⟨1, none, none, some "initial ingest", .ready⟩], by simp⟩ }
  calls _ := .idle

variable {r : VersionRow}

lemma readyRow_some : db.readyRow v = some r ↔ db.versions.find v = some r ∧ r.state = .ready := by
  simp [Db.readyRow]

lemma readyRow_orphan (db : Db) (w v : ℤ) : (db.orphan w).readyRow v = db.readyRow v := by
  simp only [Db.readyRow, Db.orphan, find_modify]
  split_ifs
  · cases db.versions.find v with
    | none => rfl
    | some r =>
      by_cases hr : r.state = .reserved
      · simp [orphanRow, hr, Option.filter]
      · simp [orphanRow, hr]
  · rfl

lemma readyRow_publish_self (note : Option String)
    (hr : db.versions.find v = some r) (hres : r.state = .reserved) :
    (db.publish v note).readyRow v = some { r with state := .ready, note := note } := by
  rw [readyRow_some]
  simp [Db.publish, find_modify, hr, publishRow, hres]

variable {t : Table VersionRow.version}

lemma readyRow_insert {m : Option ManifestRow} (ht : db.versions.insert r = some t) (hr : r.state = .reserved)
    (v : ℤ) : Db.readyRow ⟨m, t⟩ v = db.readyRow v := by
  have hn := (insert_rows ht).2
  simp only [Db.readyRow, find_insert ht]
  split_ifs with hv
  · subst hv
    simp [hn, hr]
  · rfl

lemma verifySelectedBundle_ready {bundle : Except StoreError Unit}
    (h : verifySelectedBundle auth db v bundle = .ok ()) : (db.readyRow v).isSome := by
  obtain ⟨row, _, h⟩ := except_bind_ok h
  obtain ⟨head, _, h⟩ := except_bind_ok h
  split at h
  · cases h
  next r hr =>
    simp [hr]

variable {id : ℕ} {r : Reservation} {row : ManifestRow} {note w : Option String}

lemma live_holds {p : Phase} (h : p.live = some r) : p.holds = some r := by
  cases p <;> first | exact h | cases h

structure Inv (s : State) : Prop where
  head : ∃ row head, s.db.manifest = some row ∧ row.head = some head ∧ s.Ready head
  bounded : ∀ row, s.db.manifest = some row → ∀ r ∈ s.db.versions.rows, r.version ≤ row.latest
  held : ∀ id r, (s.calls id).holds = some r → ∃ v, s.db.versions.find r.version = some v ∧
    v.state = .reserved ∧ v.parentVersion = some r.expected
  exclusive : ∀ id id' r r', (s.calls id).holds = some r → (s.calls id').holds = some r' →
    r.version = r'.version → id = id'

lemma inv_ingested (lock : Option CheckoutColumns) (fence : ℤ) : Inv (ingested lock fence) where
  head := ⟨_, 1, rfl, rfl, rfl⟩
  bounded row hrow r hr := by
    cases hrow
    rw [ingested, mem_singleton] at hr
    rw [hr]
  held id r h := by cases h
  exclusive id id' r r' h := by cases h

lemma Retires.holds (h : Retires s s') (hr : (s'.calls id).holds = some r) : (s.calls id).holds = some r := by
  rcases h id with ⟨_, he⟩ | ⟨_, he | he⟩
  · rw [← he, hr]
  · rw [← he, hr]
  · cases hr.symm.trans he

lemma Retires.live (h : Retires s s') (hr : (s'.calls id).live = some r) : (s.calls id).live = some r := by
  rcases h id with ⟨he, _⟩ | ⟨he, _⟩
  · rw [← he, hr]
  · cases hr.symm.trans he

variable {row' : ManifestRow} {head fence : ℤ}

lemma Inv.frame (h : Inv s) (hv : s'.db.versions = s.db.versions) (hc : Retires s s')
    (hrow : s.db.manifest = some row) (hrow' : s'.db.manifest = some row')
    (hl : row'.latest = row.latest) (hh : row'.head = some head) (hrd : s.Ready head) : Inv s' where
  head := ⟨row', head, hrow', hh, by simpa [State.Ready, Db.readyRow, hv] using hrd⟩
  bounded row'' hrow'' r hr := by
    rw [hrow'] at hrow''
    cases hrow''
    rw [hl]
    exact h.bounded row hrow r (hv ▸ hr)
  held id r hr := by
    rw [hv]
    exact h.held id r (hc.holds hr)
  exclusive id id' r r' hr hr' := h.exclusive id id' r r' (hc.holds hr) (hc.holds hr')

lemma Inv.others (h : Inv s) (hcl : (s.calls id).holds = some r)
    (hc : ∀ id', id' ≠ id → s'.calls id' = s.calls id') (hg : (s'.calls id).holds = none)
    (hf : ∀ v, v ≠ r.version → s'.db.versions.find v = s.db.versions.find v) :
    (∀ id r, (s'.calls id).holds = some r → ∃ v, s'.db.versions.find r.version = some v ∧
      v.state = .reserved ∧ v.parentVersion = some r.expected) ∧
    ∀ id id' r r', (s'.calls id).holds = some r → (s'.calls id').holds = some r' →
      r.version = r'.version → id = id' := by
  have hb : ∀ id' r', (s'.calls id').holds = some r' → id' ≠ id ∧ (s.calls id').holds = some r' := by
    intro id' r' hr'
    have hne : id' ≠ id := by
      rintro rfl
      cases hg.symm.trans hr'
    exact ⟨hne, hc id' hne ▸ hr'⟩
  constructor
  · intro id' r' hr'
    obtain ⟨hne, hr'⟩ := hb id' r' hr'
    have hv : r'.version ≠ r.version := fun he => hne (h.exclusive id' id r' r hr' hcl he)
    rw [hf _ hv]
    exact h.held id' r' hr'
  · intro i j ri rj hi hj
    exact h.exclusive i j ri rj (hb i ri hi).2 (hb j rj hj).2

lemma Inv.reserved (h : Inv s)
    (hrow : s.db.manifest = some row) (hr : r.version = row.latest + 1 ∧ r.expected = head)
    (ht : s.db.versions.insert ⟨row.latest + 1, some head, w, note, .reserved⟩ = some t) :
    Inv { s.set id (.uploading r) with db := ⟨some { row with latest := row.latest + 1 }, t⟩ } := by
  have hold : ∀ id' r', (s.calls id').holds = some r' → r'.version ≠ row.latest + 1 := by
    intro id' r' hr'
    obtain ⟨v, hv, _⟩ := h.held id' r' hr'
    have hle := h.bounded row hrow v (mem_of_find hv)
    have hk := find_key hv
    omega
  have hc : ∀ id' r', ((s.set id (.uploading r)).calls id').holds = some r' →
      id' = id ∧ r' = r ∨ id' ≠ id ∧ (s.calls id').holds = some r' := by
    intro id' r' hr'
    by_cases hid : id' = id
    · subst hid
      simp only [State.set, update_self, holds, some.injEq] at hr'
      exact .inl ⟨rfl, hr'.symm⟩
    · simp only [State.set, update_of_ne hid] at hr'
      exact .inr ⟨hid, hr'⟩
  obtain ⟨row₀, head₀, hrow₀, hh₀, hrd₀⟩ := h.head
  cases hrow.symm.trans hrow₀
  refine ⟨⟨_, head₀, rfl, hh₀, ?_⟩, ?_, ?_, ?_⟩
  · simpa [State.Ready, readyRow_insert ht rfl] using hrd₀
  · intro row' hrow' r' hr'
    cases hrow'
    rw [mem_insert ht] at hr'
    rcases hr' with hr' | rfl
    · have hle := h.bounded row hrow r' hr'
      simp only
      omega
    · exact le_refl _
  · intro id' r' hr'
    rcases hc id' r' hr' with ⟨-, rfl⟩ | ⟨-, hr'⟩
    · refine ⟨⟨row.latest + 1, some head, w, note, .reserved⟩, ?_, rfl, by rw [hr.2]⟩
      rw [find_insert ht, hr.1, if_pos rfl]
    · rw [find_insert ht, if_neg (hold id' r' hr')]
      exact h.held id' r' hr'
  · intro i j ri rj hi hj hij
    rcases hc i ri hi with ⟨hi', hri⟩ | ⟨-, hi'⟩ <;>
      rcases hc j rj hj with ⟨hj', hrj⟩ | ⟨-, hj'⟩
    · rw [hi', hj']
    · exact absurd (hij.symm.trans (hri ▸ hr.1)) (hold j rj hj')
    · exact absurd (hij.trans (hrj ▸ hr.1)) (hold i ri hi')
    · exact h.exclusive i j ri rj hi' hj' hij

lemma Inv.orphaned (h : Inv s) (hcl : (s.calls id).holds = some r)
    (hdb : s'.db = s.db.orphan r.version) (hc : ∀ id', id' ≠ id → s'.calls id' = s.calls id')
    (hg : (s'.calls id).holds = none) : Inv s' := by
  have hf : ∀ v, v ≠ r.version → s'.db.versions.find v = s.db.versions.find v := by
    intro v hv
    rw [hdb, Db.orphan, find_modify, if_neg hv]
  obtain ⟨hh, hec⟩ := h.others hcl hc hg hf
  obtain ⟨row, head, hrow, hhd, hrd⟩ := h.head
  refine ⟨⟨row, head, by rw [hdb]; exact hrow, hhd, ?_⟩, ?_, hh, hec⟩
  · simpa [State.Ready, hdb, readyRow_orphan] using hrd
  intro row' hrow' v hv
  rw [hdb] at hrow' hv
  obtain ⟨v₀, hv₀, he, -⟩ := mem_modify orphanRow_version hv
  rw [he]
  exact h.bounded row' hrow' v₀ hv₀

lemma Inv.published (h : Inv s) (hc : (s.calls id).holds = some r) (hrow : s.db.manifest = some row)
    (hdb : s'.db = (s.db.setHead row r.version).publish r.version note)
    (hcl : ∀ id', id' ≠ id → s'.calls id' = s.calls id') (hg : (s'.calls id).holds = none) : Inv s' := by
  have hf : ∀ v, v ≠ r.version → s'.db.versions.find v = s.db.versions.find v := by
    intro v hv
    rw [hdb, Db.publish, find_modify, if_neg hv]
    rfl
  obtain ⟨hh, hec⟩ := h.others hc hcl hg hf
  obtain ⟨v, hv, hres, _⟩ := h.held id r hc
  have hv' : (s.db.setHead row r.version).versions.find r.version = some v := hv
  refine ⟨⟨_, r.version, by rw [hdb]; rfl, rfl, ?_⟩, ?_, hh, hec⟩
  · rw [State.Ready, hdb, readyRow_publish_self note hv' hres]
    rfl
  intro row' hrow' w hw
  rw [hdb] at hrow' hw
  cases hrow'
  obtain ⟨w₀, hw₀, he, -⟩ := mem_modify (publishRow_version note) hw
  rw [he]
  exact h.bounded row hrow w₀ hw₀

lemma Effect.inv (heff : Effect auth s e ans s') (h : Inv s) : Inv s' := by
  obtain ⟨row, head, hrow, hh, hrd⟩ := h.head
  cases heff with
  | quiet hdb hc =>
    exact h.frame (by rw [hdb]) hc hrow (by rw [hdb, hrow]) rfl hh hrd
  | reserved hi hrow' hh' hco hlv hrn ht =>
    exact h.reserved hrow' ⟨rfl, rfl⟩ ht
  | orphaned hcl hdb hc hg => exact h.orphaned hcl hdb hc hg.1
  | published hcl hrow' =>
    exact h.published (by rw [hcl]; rfl) hrow' rfl (fun id' hid => by simp [State.set, hid])
      (by simp [State.set, holds])
  | undone hrow' hh' _ _ _ hv =>
    exact h.frame rfl (retires_refl s) hrow' rfl rfl rfl (verifySelectedBundle_ready hv)
  | redone hrow' hh' _ _ _ _ hv =>
    exact h.frame rfl (retires_refl s) hrow' rfl rfl rfl (verifySelectedBundle_ready hv)
  | leased hrow' hh' hl =>
    cases hrow.symm.trans hrow'
    exact h.frame rfl (retires_refl s) hrow rfl hl (hh'.trans hh) hrd

def run (auth : Authority) (checkout : Option CheckoutColumns) (fence : ℤ) (es : List Event) : State :=
  after (step auth) (ingested checkout fence) es

lemma inv_run (auth : Authority) (lock : Option CheckoutColumns) (fence : ℤ)
    (es : List Event) : Inv (run auth lock fence es) :=
  invariant (inv_ingested lock fence) (fun s e => (step_effect auth s e).inv) es

lemma ready_publish (h : Inv s) (hc : (s.calls id).holds = some r) (v : ℤ) :
    (((s.db.setHead row r.version).publish r.version note).readyRow v).isSome ↔ v = r.version ∨ s.Ready v := by
  by_cases hv : v = r.version
  · subst hv
    obtain ⟨w, hw, hres, _⟩ := h.held id r hc
    have hw' : (s.db.setHead row r.version).versions.find r.version = some w := hw
    simp [readyRow_publish_self note hw' hres]
  · simp only [Db.readyRow, Db.publish, find_modify, hv, false_or]
    rfl

lemma Inv.not_ready (h : Inv s) (hr : (s.calls id).holds = some r) : ¬ s.Ready r.version := by
  obtain ⟨w, hw, hres, _⟩ := h.held id r hr
  intro hrd
  obtain ⟨w', hw'⟩ := isSome_iff_exists.mp hrd
  obtain ⟨hf, hs⟩ := readyRow_some.mp hw'
  cases hw.symm.trans hf
  cases hres.symm.trans hs

structure Dead (v : ℤ) (s : State) : Prop where
  notReady : ¬ s.Ready v
  old : ∀ row, s.db.manifest = some row → v ≤ row.latest
  noCall : ∀ id r, (s.calls id).live = some r → r.version ≠ v

section

variable (heff : Effect auth s e ans s')

include heff

lemma Effect.ready (h : Inv s) (v : ℤ) :
    (s'.Ready v ↔ s.Ready v) ∨
    ∃ id note clock r row, e = .finalize id note clock ∧ s.calls id = .uploaded r ∧
      s.db.manifest = some row ∧ fencedHead row r clock = true ∧ ans = .ok (.published r.version) ∧
      s'.db.head = some r.version ∧ s'.calls id = .ended ∧
      (s'.Ready v ↔ v = r.version ∨ s.Ready v) := by
  cases heff with
  | quiet hdb => exact .inl (by simp [State.Ready, hdb])
  | reserved hi hrow hhd hco hl hrn ht =>
    exact .inl (by simp [State.Ready, readyRow_insert ht rfl])
  | orphaned hc hdb => exact .inl (by simp [State.Ready, hdb, readyRow_orphan])
  | @published id note clock r row hc hrow hf =>
    have hh : (s.calls id).holds = some r := by rw [hc]; rfl
    exact .inr ⟨id, note, clock, r, row, rfl, hc, hrow, hf, rfl, rfl, by simp [State.set], ready_publish h hh v⟩
  | undone | redone | leased => exact .inl Iff.rfl

lemma Effect.ready_mono (h : Inv s) (hv : s.Ready v) : s'.Ready v := by
  rcases heff.ready h v with hi | ⟨_, _, _, _, _, -, -, -, -, -, -, -, hi⟩
  · exact hi.mpr hv
  · exact hi.mpr (.inr hv)

lemma Effect.latest (hrow' : s'.db.manifest = some row') :
    ∃ row, s.db.manifest = some row ∧ (handsOut ans = none ∧ row'.latest = row.latest ∨
      handsOut ans = some row'.latest ∧ row'.latest = row.latest + 1) := by
  cases heff with
  | quiet hdb _ ho => exact ⟨row', hdb ▸ hrow', .inl ⟨ho, rfl⟩⟩
  | reserved hi hrow =>
    cases hrow'
    exact ⟨_, hrow, .inr ⟨rfl, rfl⟩⟩
  | orphaned hc hdb _ _ ho =>
    rw [hdb] at hrow'
    exact ⟨row', hrow', .inl ⟨ho, rfl⟩⟩
  | published hc hrow =>
    cases hrow'
    exact ⟨_, hrow, .inl ⟨rfl, rfl⟩⟩
  | undone hrow | redone hrow =>
    cases hrow'
    exact ⟨_, hrow, .inl ⟨rfl, rfl⟩⟩
  | leased hrow _ hl ho =>
    cases hrow'
    exact ⟨_, hrow, .inl ⟨ho, hl⟩⟩

lemma Effect.handsOut (hv : handsOut ans = some v) : ∃ row, s.db.manifest = some row ∧ v = row.latest + 1 := by
  cases heff with
  | quiet _ _ ho => rw [ho] at hv; cases hv
  | reserved hi hrow => exact ⟨_, hrow, (some.inj hv).symm⟩
  | orphaned _ _ _ _ ho => rw [ho] at hv; cases hv
  | leased _ _ _ ho => rw [ho] at hv; cases hv
  | published | undone | redone => cases hv

lemma Effect.live (hr : (s'.calls id).live = some r) :
    (s.calls id).live = some r ∨
    ∃ a now later row co, e = .reserve id a now later ∧ s.db.manifest = some row ∧
      row.checkout = some co ∧ now < co.expiresAt ∧ row.head = some r.expected ∧
      co.holder = r.holder ∧ row.checkoutFence = r.fence ∧ r.version = row.latest + 1 ∧
      ans = .ok (.reserved r.version) := by
  cases heff with
  | quiet _ hc => exact .inl (hc.live hr)
  | @reserved id' a now later row head co t hi hrow hh hco hl hrn ht =>
    by_cases hid : id = id'
    · subst hid
      simp only [State.set, update_self, live, some.injEq] at hr
      subst hr
      exact .inr ⟨a, now, later, row, co, rfl, hrow, hco, hl, hh, rfl, rfl, rfl, rfl⟩
    · simp only [State.set, update_of_ne hid] at hr
      exact .inl hr
  | @orphaned _ id' r' _ _ hcl hdb hc hg =>
    by_cases hid : id = id'
    · subst hid
      cases hg.2.symm.trans hr
    · exact .inl (hc id hid ▸ hr)
  | @published id' note clock r' row hcl =>
    by_cases hid : id = id'
    · subst hid
      simp [State.set, live] at hr
    · simp only [State.set, update_of_ne hid] at hr
      exact .inl hr
  | undone | redone | leased => exact .inl hr

lemma Effect.dead (hi : Inv s) (h : Dead v s) : Dead v s' where
  notReady := by
    intro hrd
    rcases heff.ready hi v with hiff | ⟨id, note, clock, r, row, -, hc, -, -, -, -, -, hiff⟩
    · exact h.notReady (hiff.mp hrd)
    rcases hiff.mp hrd with rfl | hrd
    · exact h.noCall id r (by rw [hc]; rfl) rfl
    · exact h.notReady hrd
  old row' hrow' := by
    obtain ⟨row, hrow, ⟨-, hl⟩ | ⟨-, hl⟩⟩ := heff.latest hrow'
    · rw [hl]
      exact h.old row hrow
    · have hle := h.old row hrow
      omega
  noCall id r hr := by
    rcases heff.live hr with hr | ⟨_, _, _, row, _, _, hrow, _, _, _, _, _, hv, _⟩
    · exact h.noCall id r hr
    · have hle := h.old row hrow
      omega

variable (h : Inv s) (hr : (s.calls id).live = some r)
  (hr' : (s'.calls id).live = none) (hans : ans ≠ .ok (.published r.version))

include hr hr' hans

lemma Effect.given_up_head : s'.db.head = s.db.head := by
  cases heff with
  | quiet hdb => rw [hdb]
  | reserved hi hrow hh =>
    simp [Db.head, hrow]
  | orphaned _ hdb =>
    rw [hdb]
    rfl
  | @published id' note clock r' row hc hrow hf =>
    by_cases hid : id = id'
    · subst hid
      rw [hc] at hr
      cases hr
      exact absurd rfl hans
    · simp only [State.set, update_of_ne hid, hr] at hr'
      cases hr'
  | undone | redone => rw [hr] at hr'; cases hr'
  | leased hrow hh =>
    simp [Db.head, hrow, hh]

include h

lemma Effect.given_up_dead : Dead r.version s' := by
  obtain ⟨row₀, _, hrow₀, _⟩ := h.head
  obtain ⟨w, hw, -⟩ := h.held id r (live_holds hr)
  have hle : r.version ≤ row₀.latest := by
    rw [← find_key hw]
    exact h.bounded row₀ hrow₀ w (mem_of_find hw)
  have hn := h.not_ready (live_holds hr)
  refine ⟨?_, ?_, ?_⟩
  · intro hrd
    rcases heff.ready h r.version with hi | ⟨id', _, _, r', _, -, hc, -, -, hp, -, -, hi⟩
    · exact hn (hi.mp hrd)
    rcases hi.mp hrd with hv | hrd
    · rw [← hv] at hp
      exact hans hp
    · exact hn hrd
  · intro row' hrow'
    obtain ⟨row, hrow, ⟨-, hl⟩ | ⟨-, hl⟩⟩ := heff.latest hrow'
    all_goals
      cases hrow₀.symm.trans hrow
      omega
  · intro id' r' hlv
    rcases heff.live hlv with hlv' | ⟨_, _, _, row, _, _, hrow, _, _, _, _, _, hv, _⟩
    · intro he
      have hid := h.exclusive id' id r' r (live_holds hlv') (live_holds hr) he
      rw [hid, hr'] at hlv
      cases hlv
    · cases hrow₀.symm.trans hrow
      omega

end

lemma dead_after (hi : Inv s) (h : Dead v s) (es : List Event) : Dead v (after (step auth) s es) :=
  (invariant (I := fun t => Inv t ∧ Dead v t) ⟨hi, h⟩
    (fun s e ht => ⟨(step_effect auth s e).inv ht.1, (step_effect auth s e).dead ht.1 ht.2⟩) es).2

def handedOut (h : List (Event × Except StoreError Answer)) : List ℤ := h.filterMap fun x => handsOut x.2

lemma handedOut_concat (h : List (Event × Except StoreError Answer)) (x : Event × Except StoreError Answer) :
    handedOut (h ++ [x]) = handedOut h ++ (handsOut x.2).toList := by
  cases hx : handsOut x.2 <;> simp [handedOut, hx]

lemma handedOut_increasing (auth : Authority) (lock : Option CheckoutColumns) (fence : ℤ) (es : List Event) :
    (handedOut (trace (step auth) (ingested lock fence) es)).Pairwise (· < ·) := by
  refine (history (I := fun h s => (handedOut h).Pairwise (· < ·) ∧
    ∀ row, s.db.manifest = some row → ∀ v ∈ handedOut h, v ≤ row.latest)
    ⟨Pairwise.nil, by simp [handedOut]⟩ ?_ es).1
  rintro h t e ⟨hp, hle⟩
  rw [handedOut_concat]
  constructor
  · refine pairwise_append.mpr ⟨hp, by cases handsOut (step auth t e).1 <;> simp, ?_⟩
    intro v hv w hw
    obtain ⟨row, hrow, rfl⟩ := (step_effect auth t e).handsOut (mem_toList.mp hw)
    have hv' := hle row hrow v hv
    omega
  · intro row' hrow' v hv
    obtain ⟨row, hrow, ⟨hn, hl⟩ | ⟨hs, hl⟩⟩ := (step_effect auth t e).latest hrow'
    · rw [hn, toList_none, append_nil] at hv
      rw [hl]
      exact hle row hrow v hv
    rw [hs, toList_some, mem_append, mem_singleton] at hv
    rcases hv with hv | rfl
    · have hv' := hle row hrow v hv
      omega
    · exact le_refl _

lemma ready_after (hi : Inv s) (h : s.Ready v) (es : List Event) : (after (step auth) s es).Ready v :=
  (invariant (I := fun t => Inv t ∧ t.Ready v) ⟨hi, h⟩
    (fun t e ht => ⟨(step_effect auth t e).inv ht.1, (step_effect auth t e).ready_mono ht.1 ht.2⟩)
    es).2

lemma fencedHead_true {clock : Time} (h : fencedHead row r clock = true) :
    row.head = some r.expected ∧
      ∃ co, row.checkout = some co ∧ co.holder = r.holder ∧ row.checkoutFence = r.fence ∧
        clock < co.expiresAt := by
  simp only [fencedHead, Bool.and_eq_true, decide_eq_true_eq] at h
  obtain ⟨hh, h⟩ := h
  refine ⟨hh, ?_⟩
  split at h
  · cases h
  rename_i co hco
  simp only [Bool.and_eq_true, decide_eq_true_eq] at h
  exact ⟨co, hco, h.1.1, h.1.2, h.2⟩

lemma run_append (auth : Authority) (lock : Option CheckoutColumns) (fence : ℤ)
    (pre suf : List Event) : run auth lock fence (pre ++ suf) = after (step auth) (run auth lock fence pre) suf :=
  after_append _ _ _

lemma live_reserved {es : List Event} {lock : Option CheckoutColumns}
    (hr : ((run auth lock fence es).calls id).live = some r) :
    ∃ pre a now later suf row co, es = pre ++ .reserve id a now later :: suf ∧
      (run auth lock fence pre).db.manifest = some row ∧ row.checkout = some co ∧
      now < co.expiresAt ∧ row.head = some r.expected ∧ co.holder = r.holder ∧
      row.checkoutFence = r.fence ∧
      (step auth (run auth lock fence pre) (.reserve id a now later)).1 = .ok (.reserved r.version) := by
  obtain ⟨pre, e, suf, rfl, hn, hin⟩ := exists_acquired (s := ingested lock fence)
    (P := fun t : State => (t.calls id).live = some r) (by simp [ingested, live]) hr
  rcases (step_effect auth _ e).live hin with
    hold | ⟨a, now, later, row, co, rfl, hrow, hco, hl, hhd, hh, hf, -, ha⟩
  · exact absurd hold hn
  · exact ⟨pre, a, now, later, suf, row, co, rfl, hrow, hco, hl, hhd, hh, hf, ha⟩

theorem pg_no_lost_update (auth : Authority) (checkout : Option CheckoutColumns) (fence : ℤ) (es : List Event) :
    -- the versions handed out
    (handedOut (trace (step auth) (ingested checkout fence) es)).Pairwise (· < ·) ∧
    (∃ head, (run auth checkout fence es).db.head = some head ∧ (run auth checkout fence es).Ready head) ∧
    (∀ pre suf v, es = pre ++ suf → (run auth checkout fence pre).Ready v → (run auth checkout fence es).Ready v) ∧
    -- the step in which a version becomes ready
    (∀ pre e suf v, es = pre ++ e :: suf → ¬ (run auth checkout fence pre).Ready v →
      (run auth checkout fence (pre ++ [e])).Ready v →
      ∃ id note clock parent row co w, e = .finalize id note clock ∧
        (run auth checkout fence pre).db.versions.find v = some w ∧
        w.parentVersion = some parent ∧
        (run auth checkout fence pre).db.manifest = some row ∧ row.head = some parent ∧
        (run auth checkout fence (pre ++ [e])).db.head = some v ∧
        row.checkout = some co ∧ clock < co.expiresAt ∧
        ∃ pre₀ a now later suf₀ row₀ co₀, pre = pre₀ ++ .reserve id a now later :: suf₀ ∧
          (step auth (run auth checkout fence pre₀) (.reserve id a now later)).1 = .ok (.reserved v) ∧
          (run auth checkout fence pre₀).db.manifest = some row₀ ∧ row₀.head = some parent ∧
          row₀.checkout = some co₀ ∧ now < co₀.expiresAt ∧
          co₀.holder = co.holder ∧ row₀.checkoutFence = row.checkoutFence) ∧
    -- a publication given up, lost or crashed
    ∀ pre e suf id r, es = pre ++ e :: suf →
      ((run auth checkout fence pre).calls id).live = some r →
      ((run auth checkout fence (pre ++ [e])).calls id).live = none →
      (step auth (run auth checkout fence pre) e).1 ≠ .ok (.published r.version) →
      (run auth checkout fence (pre ++ [e])).db.head = (run auth checkout fence pre).db.head ∧
      ¬ (run auth checkout fence es).Ready r.version := by
  refine ⟨handedOut_increasing auth checkout fence es, ?_, ?_, ?_, ?_⟩
  · obtain ⟨row, head, hrow, hhd, hrd⟩ := (inv_run auth checkout fence es).head
    exact ⟨head, by simp [Db.head, hrow, hhd], hrd⟩
  · rintro pre suf v rfl hrd
    rw [run_append]
    exact ready_after (inv_run auth checkout fence pre) hrd suf
  · rintro pre e suf v rfl hn hrd
    have hi := inv_run auth checkout fence pre
    rw [run_append, after_cons, after_nil] at hrd ⊢
    rcases (step_effect auth _ e).ready hi v with hiff |
      ⟨id, note, clock, r, row, rfl, hcl, hrow, hf, -, hhd, -, hiff⟩
    · exact absurd (hiff.mp hrd) hn
    obtain rfl := (hiff.mp hrd).resolve_right hn
    have hl : ((run auth checkout fence pre).calls id).live = some r := by rw [hcl]; rfl
    obtain ⟨he, co, hco, hh, hfn, hc⟩ := fencedHead_true hf
    obtain ⟨w, hw, -, hp⟩ := hi.held id r (live_holds hl)
    obtain ⟨pre₀, a, now, later, suf₀, row₀, co₀, hpre, hrow₀, hco₀, hnow, hhd₀, hh₀, hf₀, ha⟩ := live_reserved hl
    exact ⟨id, note, clock, r.expected, row, co, w, rfl, hw, hp, hrow, he, hhd, hco,
      hc, pre₀, a, now, later, suf₀, row₀, co₀, hpre, ha, hrow₀, hhd₀, hco₀, hnow,
      hh₀.trans hh.symm, hf₀.trans hfn.symm⟩
  · rintro pre e suf id r rfl hr hr' hans
    have hi := inv_run auth checkout fence pre
    rw [run_append, after_cons, after_nil] at hr' ⊢
    have heff := step_effect auth (run auth checkout fence pre) e
    refine ⟨heff.given_up_head hr hr' hans, ?_⟩
    rw [run_append, after_cons]
    exact (dead_after (heff.inv hi) (heff.given_up_dead hi hr hr' hans) suf).notReady

def sampleAuthority : Authority where
  tid := "t1"
  did := "d1"
  visibleNote note := note

def putFrom (parent : ℤ) : PutArgs := ⟨some parent, some "session-a", some 1, false, none, none⟩

def uploadedEvents : List Event :=
  [.acquire "session-a" 100 none true 0 0, .reserve 0 (putFrom 1) 1 1, .upload 0 true]

def publishedEvents : List Event := uploadedEvents ++ [.finalize 0 none 2]

theorem pg_no_lost_update_published :
    (run sampleAuthority none 0 publishedEvents).Ready 2 ∧
    ∃ parent row, (run sampleAuthority none 0 uploadedEvents).db.manifest = some row ∧
      row.head = some parent ∧
      (run sampleAuthority none 0 publishedEvents).db.head = some 2 := by
  have hrd : (run sampleAuthority none 0 publishedEvents).Ready 2 := by
    decide
  obtain ⟨_, _, _, hb, _⟩ := pg_no_lost_update sampleAuthority none 0 publishedEvents
  obtain ⟨_, _, _, parent, row, _, _, _, _, _, hrow, hh, hm, _⟩ :=
    hb uploadedEvents (.finalize 0 none 2) [] 2 rfl (by decide) hrd
  exact ⟨hrd, parent, row, hrow, hh, hm⟩

end LeafWeb.Store.Postgres
