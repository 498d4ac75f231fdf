import LeafWeb.Store.Postgres.NoLostUpdate

namespace LeafWeb.Store.Postgres

open Lib Procedure Transition ParentChain Table List Option

variable {auth : Authority} {s s' : State} {e : Event} {db : Db} {v head w p : ℤ} {row : ManifestRow}
  {r : VersionRow} {latest : ℤ} {ans : Except StoreError Answer}

lemma mem_readyRows : r ∈ db.readyRows ↔ db.readyRow r.version = some r := by
  rw [readyRow_some, find_some, Db.readyRows, mem_filter]
  simp

lemma mem_ready_versions : v ∈ db.readyRows.map (·.version) ↔ (db.readyRow v).isSome := by
  constructor
  · intro h
    obtain ⟨r, hr, rfl⟩ := mem_map.mp h
    simp [mem_readyRows.mp hr]
  intro h
  obtain ⟨r, hr⟩ := isSome_iff_exists.mp h
  have hv : r.version = v := find_key (readyRow_some.mp hr).1
  subst hv
  exact mem_map_of_mem (mem_readyRows.mpr hr)

lemma maxReady_some : db.maxReady = some latest ↔
    (db.readyRow latest).isSome ∧ ∀ v, (db.readyRow v).isSome → v ≤ latest := by
  simp [Db.maxReady, max?_eq_some_iff, mem_ready_versions]

def HeadOnChain (s : State) : Prop :=
  ∃ head latest, s.db.head = some head ∧ s.db.maxReady = some latest ∧ OnChain s.db.parentOf latest head

/-- A publication that wins does so above every version that is already ready. -/
def InOrder (s : State) (e : Event) : Prop :=
  ∀ id note clock r row, e = .finalize id note clock → s.calls id = .uploaded r →
    s.db.manifest = some row → fencedHead row r clock = true → ∀ v, s.Ready v → v < r.version

structure Rooted (s : State) : Prop where
  parents : ∀ r ∈ s.db.versions.rows, ∀ p, r.parentVersion = some p → s.Ready p ∧ p < r.version
  range : ∀ r ∈ s.db.versions.rows, 1 ≤ r.version ∧ r.version ≤ 99999999

lemma rows_orphan (hr : r ∈ (db.orphan w).versions.rows) :
    ∃ r₀ ∈ db.versions.rows, r.version = r₀.version ∧ r.parentVersion = r₀.parentVersion := by
  obtain ⟨r₀, hr₀, hv, rfl | rfl⟩ := mem_modify orphanRow_version hr
  · refine ⟨r₀, hr₀, hv, ?_⟩
    unfold orphanRow
    split_ifs <;> rfl
  · exact ⟨r, hr₀, rfl, rfl⟩

lemma rows_publish {note : Option String} (hr : r ∈ (db.publish w note).versions.rows) :
    ∃ r₀ ∈ db.versions.rows, r.version = r₀.version ∧ r.parentVersion = r₀.parentVersion := by
  obtain ⟨r₀, hr₀, hv, rfl | rfl⟩ := mem_modify (publishRow_version note) hr
  · refine ⟨r₀, hr₀, hv, ?_⟩
    unfold publishRow
    split_ifs <;> rfl
  · exact ⟨r, hr₀, rfl, rfl⟩

lemma Effect.rows (he : Effect auth s e ans s') (hr : r ∈ s'.db.versions.rows) :
    (∃ r₀ ∈ s.db.versions.rows, r.version = r₀.version ∧ r.parentVersion = r₀.parentVersion) ∨
    ∃ row head, s.db.manifest = some row ∧ row.head = some head ∧ r.version = row.latest + 1 ∧
      r.parentVersion = some head ∧ 1 ≤ r.version ∧ r.version ≤ 99999999 := by
  cases he with
  | quiet hdb => exact .inl ⟨r, hdb ▸ hr, rfl, rfl⟩
  | reserved hi hrow hh hco hl hrn ht =>
    rw [mem_insert ht] at hr
    rcases hr with hr | rfl
    · exact .inl ⟨r, hr, rfl, rfl⟩
    · exact .inr ⟨_, _, hrow, hh, rfl, rfl, hrn.1, hrn.2⟩
  | orphaned _ hdb => exact .inl (rows_orphan (hdb ▸ hr))
  | published => exact .inl (rows_publish hr)
  | undone | redone | leased => exact .inl ⟨r, hr, rfl, rfl⟩

lemma ready_bounded (h : Inv s) (hrow : s.db.manifest = some row) (hv : s.Ready v) : v ≤ row.latest := by
  obtain ⟨r, hr⟩ := isSome_iff_exists.mp hv
  obtain ⟨hf, -⟩ := readyRow_some.mp hr
  rw [← find_key hf]
  exact h.bounded row hrow r (mem_of_find hf)

lemma Effect.rooted (he : Effect auth s e ans s') (hi : Inv s) (h : Rooted s) : Rooted s' where
  parents r hr p hp := by
    rcases he.rows hr with ⟨r₀, hr₀, hv, hpar⟩ | ⟨row, head, hrow, hh, hv, hpar, -⟩
    · obtain ⟨hrd, hlt⟩ := h.parents r₀ hr₀ p (hpar ▸ hp)
      exact ⟨he.ready_mono hi hrd, hv ▸ hlt⟩
    cases hpar.symm.trans hp
    obtain ⟨row', head', hrow', hh', hrd⟩ := hi.head
    cases hrow.symm.trans hrow'
    cases hh.symm.trans hh'
    have hle := ready_bounded hi hrow hrd
    exact ⟨he.ready_mono hi hrd, by omega⟩
  range r hr := by
    rcases he.rows hr with ⟨r₀, hr₀, hv, -⟩ | ⟨_, _, -, -, -, -, hl, hhg⟩
    · rw [hv]
      exact h.range r₀ hr₀
    · exact ⟨hl, hhg⟩

lemma rooted_ingested (lock : Option CheckoutColumns) (fence : ℤ) : Rooted (ingested lock fence) where
  parents r hr p hp := by
    rw [ingested, mem_singleton] at hr
    rw [hr] at hp
    cases hp
  range r hr := by
    rw [ingested, mem_singleton] at hr
    rw [hr]
    decide

lemma rooted_run (auth : Authority) (lock : Option CheckoutColumns) (fence : ℤ)
    (es : List Event) : Rooted (run auth lock fence es) :=
  (invariant (I := fun t => Inv t ∧ Rooted t)
    ⟨inv_ingested lock fence, rooted_ingested lock fence⟩
    (fun s e ht => ⟨(step_effect auth s e).inv ht.1, (step_effect auth s e).rooted ht.1 ht.2⟩)
    es).2

lemma parentOf_some (h : db.parentOf v = some p) :
    ∃ r ∈ db.versions.rows, db.readyRow v = some r ∧ r.version = v ∧ r.parentVersion = some p := by
  obtain ⟨r, hr, hp⟩ := bind_eq_some_iff.mp h
  obtain ⟨hf, -⟩ := readyRow_some.mp hr
  exact ⟨r, mem_of_find hf, hr, find_key hf, hp⟩

lemma Rooted.decreasing (h : Rooted s) (x y : ℤ) (hp : s.db.parentOf x = some y) : y < x := by
  obtain ⟨r, hr, -, rfl, hpar⟩ := parentOf_some hp
  exact (h.parents r hr y hpar).2

lemma HeadOnChain.congr (h : HeadOnChain s) (hr : ∀ v, s'.db.readyRow v = s.db.readyRow v)
    (hhd : s'.db.head = s.db.head) : HeadOnChain s' := by
  obtain ⟨head, latest, hh, hm, hc⟩ := h
  have hp : s'.db.parentOf = s.db.parentOf := by
    funext v
    simp [Db.parentOf, hr]
  refine ⟨head, latest, hhd.trans hh, ?_, hp ▸ hc⟩
  rw [maxReady_some] at hm ⊢
  simpa [hr] using hm

variable {target x : ℤ}

lemma HeadOnChain.move (hm : s.db.maxReady = some latest) (hc : OnChain s.db.parentOf latest target) :
    HeadOnChain { s with db := s.db.setHead row target } :=
  ⟨target, latest, rfl, hm, hc⟩

lemma head_of_row (hr : db.manifest = some row) (hh : row.head = some head) : db.head = some head := by
  simp [Db.head, hr, hh]

lemma Effect.headOnChain (he : Effect auth s e ans s') (hi : Inv s) (h : HeadOnChain s)
    (ho : InOrder s e) : HeadOnChain s' := by
  obtain ⟨head, latest, hh, hm, hc⟩ := h
  cases he with
  | quiet hdb => exact HeadOnChain.congr ⟨head, latest, hh, hm, hc⟩ (by simp [hdb]) (by rw [hdb])
  | reserved hid hrow hhd hco hl hrn ht =>
    refine HeadOnChain.congr ⟨head, latest, hh, hm, hc⟩ (readyRow_insert ht rfl) ?_
    simp [Db.head, hrow]
  | orphaned _ hdb =>
    refine HeadOnChain.congr ⟨head, latest, hh, hm, hc⟩ (fun v => ?_) (by rw [hdb]; rfl)
    rw [hdb, readyRow_orphan]
  | @published id note clock r row hcl hrow hf =>
    have hhl : (s.calls id).holds = some r := by rw [hcl]; rfl
    refine ⟨r.version, r.version, rfl, ?_, onChain_refl _⟩
    rw [maxReady_some]
    refine ⟨(ready_publish hi hhl _).mpr (.inl rfl), fun v hv => ?_⟩
    rcases (ready_publish hi hhl v).mp hv with rfl | hv
    · exact le_refl _
    · exact (ho id note clock r row rfl hcl hrow hf v hv).le
  | @undone _ _ _ _ row head' parent v hrow hhd hr hp =>
    cases (head_of_row hrow hhd).symm.trans hh
    refine HeadOnChain.move hm (hc.tail ?_)
    rw [Db.parentOf, hr, bind_some, hp]
  | @redone _ _ _ _ row head' latest' target hrow hhd ha hm' hne htr =>
    exact HeadOnChain.move hm' (findChild_sound htr).1
  | leased hrow hhd =>
    refine HeadOnChain.congr ⟨head, latest, hh, hm, hc⟩ (fun _ => rfl) ?_
    simp [Db.head, hrow, hhd]

lemma inOrder_of_chain (hi : Inv s) (hr : Rooted s) (h : HeadOnChain (step auth s e).2) : InOrder s e := by
  rintro id note clock r row rfl hcl hrow hf v hv
  have hhl : (s.calls id).holds = some r := by rw [hcl]; rfl
  have hs : (step auth s (.finalize id note clock)).2 =
      { s.set id .ended with db := (s.db.setHead row r.version).publish r.version note } := by
    rcases finalize_cases r note clock s.db with ⟨row', hrow', -, heq⟩ | heq
    · cases hrow.symm.trans hrow'
      simp [step, hcl, heq]
    · simp [finalize, hrow, hf] at heq
  rw [hs] at h
  obtain ⟨head, latest, hh, hmax, hc⟩ := h
  cases hh
  have hn := hi.not_ready hhl
  rw [maxReady_some] at hmax
  have hle := hmax.2 v ((ready_publish hi hhl v).mpr (.inr hv))
  rcases hc.cases_tail with rfl | ⟨c, -, hp⟩
  · rcases eq_or_ne v r.version with rfl | hne
    · exact absurd hv hn
    · exact lt_of_le_of_ne hle hne
  obtain ⟨rc, hm, -, hcv, hcp⟩ := parentOf_some hp
  obtain ⟨rc₀, hm₀, -, hp₀⟩ := rows_publish hm
  exact absurd (hr.parents rc₀ hm₀ r.version (hp₀ ▸ hcp)).1 hn

variable {holder holder' : Option String} {fence fence' : Option ℤ} {now now' : Time}

lemma authorizeCheckoutRow_later {action : String} (action' : String) (hn : now ≤ now')
    (h : authorizeCheckoutRow row holder fence now action = .ok ()) :
    authorizeCheckoutRow row holder fence now' action' = .ok () := by
  unfold authorizeCheckoutRow at h ⊢
  split_ifs at h ⊢
  · rfl
  cases hco : row.checkout with
  | none => rfl
  | some co =>
    simp only [hco] at h ⊢
    by_cases he : co.expiresAt ≤ now'
    · rw [if_pos he]
    rw [if_neg fun hle => he (hle.trans hn)] at h
    rw [if_neg he]
    exact refuseUnlessOwner_action action' h

lemma ready_of_parentOf (hx : (db.parentOf x).isSome) : x ∈ db.readyRows.map (·.version) := by
  obtain ⟨p, hp⟩ := isSome_iff_exists.mp hx
  obtain ⟨r, -, hr, -⟩ := parentOf_some hp
  exact mem_ready_versions.mpr (by simp [hr])

lemma redoTarget_bound (db : Db) (head latest : ℤ) (k : ℕ) :
    findChild db.parentOf head (db.readyRows.length + 2 + k) (some latest) [] = redoTarget db head latest := by
  refine findChild_add (fun _ => ready_of_parentOf) (nil_subset _) nodup_nil ?_ k
  simp

lemma redoTarget_eq (h : Rooted s) (hc : OnChain s.db.parentOf latest target)
    (ht : s.db.parentOf target = some head) : redoTarget s.db head latest = some target := by
  refine findChild_complete h.decreasing (fun _ => ready_of_parentOf) (by simp) ?_ hc ht
  have hle := length_filter_le (fun x => decide (x ≤ latest)) (s.db.readyRows.map (·.version))
  simp only [length_map] at hle ⊢
  omega

variable {v : VersionRow} {bundle' bundle : Except StoreError Unit} {parent : ℤ}

lemma setHead_self (hr : db.manifest = some row) (hh : row.head = some head) : db.setHead row head = db := by
  rcases db with ⟨m, t⟩
  rcases row with ⟨h, _, _, _⟩
  cases hr
  cases hh
  rfl

lemma HeadOnChain.redoTarget (h : HeadOnChain s) (hr : Rooted s) (row : ManifestRow)
    (hhd : s.db.head = some head) (hv : s.db.readyRow head = some v) (hp : v.parentVersion = some parent) :
    ∃ latest, (s.db.setHead row parent).maxReady = some latest ∧ parent ≠ latest ∧
      redoTarget (s.db.setHead row parent) parent latest = some head := by
  obtain ⟨head₀, latest, hh, hm, hc⟩ := h
  cases hhd.symm.trans hh
  have hpar : s.db.parentOf head = some parent := by
    rw [Db.parentOf, hv, bind_some, hp]
  have hlt := hr.decreasing head parent hpar
  have hle := (maxReady_some.mp hm).2 head (by simp [hv])
  exact ⟨latest, hm, by omega, redoTarget_eq hr hc hpar⟩

section

variable (hr : Rooted s) (h : HeadOnChain s) (hh : s.db.head = some head)
  (hu : (step auth s (.undo holder fence now bundle)).1 = .ok (.moved parent))

include hh hu

lemma undo_moved :
    ∃ row v, s.db.manifest = some row ∧ row.head = some head ∧ s.db.readyRow head = some v ∧
      v.parentVersion = some parent ∧ authorizeCheckoutRow row holder fence now "undo" = .ok () ∧
      (step auth s (.undo holder fence now bundle)).2 =
        { s with db := s.db.setHead row parent } := by
  obtain ⟨p, db', htx, hp, hs⟩ := transact_ok hu
  cases hp
  obtain ⟨row, head₀, v, hr, hh₀, hv, hpr, ha, -, rfl⟩ := undo_ok htx
  rw [head_of_row hr hh₀] at hh
  cases hh
  exact ⟨row, v, hr, hh₀, hv, hpr, ha, hs⟩

include hr h

lemma redo_moves_back
    (hrd : (step auth (step auth s (.undo holder fence now bundle)).2
      (.redo holder' fence' now' bundle')).1 = .ok (.moved target)) : target = head := by
  obtain ⟨row, v, -, -, hv, hp, -, hs⟩ := undo_moved hh hu
  obtain ⟨latest, hm, -, htr⟩ := h.redoTarget hr row hh hv hp
  rw [hs] at hrd
  obtain ⟨t, db', htx, ht, -⟩ := transact_ok hrd
  cases ht
  obtain ⟨row', head', latest', hrow', hh', -, hm', -, htr', -⟩ := redo_ok htx
  cases hrow'
  cases hh'
  cases hm.symm.trans hm'
  rw [htr] at htr'
  exact (some.inj htr').symm

lemma redo_returns (hv : s.db.readyRow head = some v) (hnow : now ≤ now')
    (hb : namesBundle (auth.visibleNote v.note) = true → bundle' = .ok ()) :
    step auth (step auth s (.undo holder fence now bundle)).2 (.redo holder fence now' bundle') =
      (.ok (.moved head), s) := by
  obtain ⟨row, v₀, hrow, hh₀, hv₀, hp, ha, hs⟩ := undo_moved hh hu
  cases hv.symm.trans hv₀
  obtain ⟨latest, hm, hne, ht⟩ := h.redoTarget hr row hh hv hp
  obtain ⟨hmem, hk⟩ := find_some.mp (readyRow_some.mp hv).1
  have hsel : selectManifest auth (s.db.setHead row parent) = .ok { row with head := some parent } := rfl
  have ha' : authorizeCheckoutRow { row with head := some parent } holder fence now' "redo" =
      .ok () := authorizeCheckoutRow_later "redo" hnow ha
  have hver : verifySelectedBundle auth (s.db.setHead row parent) head bundle' = .ok () := by
    have hrn := hk ▸ hr.range v hmem
    have hvr : drawingVersionKey head = .ok (.version head) := by
      rw [drawingVersionKey, if_neg (by omega), if_neg (by omega)]
    have hrd : (s.db.setHead row parent).readyRow head = some v := hv
    simp only [verifySelectedBundle, hrd, hvr]
    split_ifs with hn
    · exact hb hn
    · rfl
  have hre : redo auth holder fence now' bundle' (s.db.setHead row parent) =
      .ok (head, s.db.setHead row head) := by
    simp only [redo, hsel, currentHead, ha', hm, ht, hver, hne, bind, Except.bind]
    rfl
  rw [hs]
  simp [step, hre, State.transact, setHead_self hrow hh₀]

end

theorem pg_redo_order (auth : Authority) (checkout : Option CheckoutColumns) (fence : ℤ) (es : List Event) :
    (Along (step auth) InOrder (ingested checkout fence) es ↔
      ∀ pre suf, es = pre ++ suf → HeadOnChain (run auth checkout fence pre)) ∧
    (Along (step auth) InOrder (ingested checkout fence) es →
      ∀ pre suf, es = pre ++ suf → ∀ holder fence' now bundle head parent,
        (run auth checkout fence pre).db.head = some head →
        (step auth (run auth checkout fence pre) (.undo holder fence' now bundle)).1 = .ok (.moved parent) →
        -- whoever succeeds with a redo
        (∀ holder₂ fence₂ now₂ bundle₂ target,
          (step auth (step auth (run auth checkout fence pre) (.undo holder fence' now bundle)).2
            (.redo holder₂ fence₂ now₂ bundle₂)).1 = .ok (.moved target) → target = head) ∧
        -- the session of the undo does
        ∀ now' bundle' v, (run auth checkout fence pre).db.readyRow head = some v → now ≤ now' →
          (namesBundle (auth.visibleNote v.note) = true → bundle' = .ok ()) →
          step auth (step auth (run auth checkout fence pre) (.undo holder fence' now bundle)).2
            (.redo holder fence' now' bundle') = (.ok (.moved head), run auth checkout fence pre)) := by
  have hch : Along (step auth) InOrder (ingested checkout fence) es →
      ∀ pre suf, es = pre ++ suf → HeadOnChain (run auth checkout fence pre) := by
    rintro ho pre suf rfl
    refine (invariant_along (I := fun t => Inv t ∧ HeadOnChain t)
      ⟨inv_ingested checkout fence, ?_⟩ (fun t e ht he =>
        ⟨(step_effect auth t e).inv ht.1, (step_effect auth t e).headOnChain ht.1 ht.2 he⟩) pre
      ((along_append _ _ _).mp ho).1).2
    exact ⟨1, 1, rfl, rfl, onChain_refl 1⟩
  refine ⟨⟨hch, fun h => ?_⟩, ?_⟩
  · apply along_of_prefixes
    intro pre e suf hes
    have hn := h (pre ++ [e]) suf (by simp [hes])
    rw [run_append] at hn
    exact inOrder_of_chain (inv_run auth checkout fence pre) (rooted_run auth checkout fence pre) hn
  · intro ho pre suf hes holder fence' now bundle head parent hh hu
    have hr := rooted_run auth checkout fence pre
    have hc := hch ho pre suf hes
    refine ⟨fun _ _ _ _ _ hrd => redo_moves_back hr hc hh hu hrd, ?_⟩
    intro now' bundle' v hv hnow hb
    exact redo_returns hr hc hh hu hv hnow hb

theorem pg_redo_order_published :
    Along (step sampleAuthority) InOrder (ingested none 0) publishedEvents ∧
    step sampleAuthority (step sampleAuthority
        (run sampleAuthority none 0 publishedEvents)
        (.undo none none 3 (.ok ()))).2 (.redo none none 4 (.ok ())) =
      (.ok (.moved 2), run sampleAuthority none 0 publishedEvents) := by
  have hes : ∀ e ∈ uploadedEvents, ∀ t, InOrder t e := by
    intro e he t id note clock r row heq
    subst heq
    simp [uploadedEvents] at he
  have hl : InOrder (run sampleAuthority none 0 uploadedEvents) (.finalize 0 none 2) := by
    rintro id note clock r row heq hc hrow hf v hv
    cases heq
    have hr : r.version = 2 := by
      have hp : ((run sampleAuthority none 0 uploadedEvents).calls 0).live.map (·.version) = some 2 := by decide
      rw [hc] at hp
      exact some.inj hp
    have hm : (run sampleAuthority none 0 uploadedEvents).db.maxReady = some 1 := by decide
    have hle := (maxReady_some.mp hm).2 v hv
    omega
  have ha : Along (step sampleAuthority) InOrder (ingested none 0) publishedEvents :=
    (along_append _ _ _).mpr ⟨along_of_forall hes, hl, trivial⟩
  obtain ⟨v, hv⟩ : ∃ v, (run sampleAuthority none 0
      publishedEvents).db.readyRow 2 = some v :=
    isSome_iff_exists.mp (by decide)
  exact ⟨ha, ((pg_redo_order sampleAuthority none 0 _).2 ha _ [] (by simp) none none 3
    (.ok ()) 2 1 (by decide) (by decide)).2 4 (.ok ()) v hv (by decide) (fun _ => rfl)⟩

-- two calls reserve on version 1 under one lease; the later reservation is published first
-- and undone before the earlier one is published
def racingEvents : List Event :=
  [.acquire "session-a" 100 none true 0 0, .reserve 0 (putFrom 1) 1 1, .reserve 1 (putFrom 1) 2 2,
   .upload 0 true, .upload 1 true, .finalize 1 none 3, .undo none none 4 (.ok ()),
   .finalize 0 none 5]

theorem redo_leaves_for_another_branch :
    (run sampleAuthority none 0 racingEvents).db.head = some 2 ∧
    (step sampleAuthority (run sampleAuthority none 0 racingEvents) (.undo none none 6 (.ok ()))).1 =
      .ok (.moved 1) ∧
    (step sampleAuthority (step sampleAuthority (run sampleAuthority none 0 racingEvents)
      (.undo none none 6 (.ok ()))).2 (.redo none none 7 (.ok ()))).1 = .ok (.moved 3) := by
  decide

end LeafWeb.Store.Postgres
