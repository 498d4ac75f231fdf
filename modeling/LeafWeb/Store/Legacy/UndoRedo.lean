import LeafWeb.Store.Legacy.History

namespace LeafWeb.Store.Legacy

open Lib.Procedure Lib.Transition Lib.ParentChain List Option Manifest Drawing

variable {host : Host} {d d' : Drawing} {m : Manifest} {e : VersionEntry} {v x : ℤ} {c u r : Call} {a : Answer}
  {p : ℤ}

lemma parentOf_some {versions : List VersionEntry} (h : parentOf versions v = some p) :
    ∃ e ∈ versions, e.v = v ∧ e.parent = some p := by
  obtain ⟨e, he, hp⟩ := bind_eq_some_iff.mp h
  exact ⟨e, mem_reverse.mp (mem_of_find?_eq_some he), by simpa using find?_some he, hp⟩

lemma number_of_parentOf (hx : (parentOf m.versions x).isSome) : x ∈ m.numbers := by
  obtain ⟨p, hp⟩ := isSome_iff_exists.mp hx
  obtain ⟨e, he, rfl, -⟩ := parentOf_some hp
  exact mem_map_of_mem he

lemma redoTarget_bound (m : Manifest) (k : ℕ) :
    findChild (parentOf m.versions) m.head (m.versions.length + 2 + k) (some m.latest) [] = redoTarget m := by
  refine findChild_add (fun _ => number_of_parentOf) (nil_subset _) nodup_nil ?_ k
  simp [numbers]

lemma parentOf_mem (hnd : m.numbers.Nodup) (he : e ∈ m.versions) : parentOf m.versions e.v = e.parent := by
  have hs : (m.versions.reverse.find? (fun f => f.v = e.v)).isSome :=
    find?_isSome.mpr ⟨e, mem_reverse.mpr he, by simp⟩
  obtain ⟨f, hf⟩ := isSome_iff_exists.mp hs
  have hmem := mem_reverse.mp (mem_of_find?_eq_some hf)
  have hv : f.v = e.v := by simpa using find?_some hf
  rw [parentOf, hf, inj_on_of_nodup_map hnd hmem he hv]
  rfl

def Manifest.marked (m : Manifest) (v : ℤ) : Bool := (m.entry? v).any (fun e => namesBundle e.note)

structure Navigable (host : Host) (d : Drawing) (m : Manifest) : Prop where
  wellFormed : WellFormed host d m
  range : ∀ e ∈ m.versions, 1 ≤ e.v ∧ e.v ≤ 99999999
  parents : ∀ e ∈ m.versions, ∀ p, e.parent = some p → p ∈ m.numbers ∧ p < e.v
  chain : OnChain (parentOf m.versions) m.latest m.head
  free : m.checkout = none
  unmarked : m.head ≠ m.latest → m.marked m.head = false

structure NavInv (host : Host) (d : Drawing) : Prop where
  noBundles : ∀ digest, d.objects (.bundle digest) = none
  navigable : ∀ m, d.manifest = some m → Navigable host d m

lemma entry?_of_mem (h : v ∈ m.numbers) : ∃ e, m.entry? v = some e := by
  obtain ⟨e, he, hv⟩ := mem_map.mp h
  exact isSome_iff_exists.mp (find?_isSome.mpr ⟨e, he, by simpa using hv⟩)

namespace Navigable

variable (h : Navigable host d m)

include h

lemma decreasing (x y : ℤ) (hp : parentOf m.versions x = some y) : y < x := by
  obtain ⟨e, he, rfl, hpar⟩ := parentOf_some hp
  exact (h.parents e he y hpar).2

lemma parentOf_entry (he : m.entry? v = some e) : parentOf m.versions v = e.parent := by
  obtain ⟨hmem, rfl⟩ := entry?_mem he
  exact parentOf_mem h.wellFormed.distinct hmem

section

variable (hm : d.manifest = some m)
include hm

lemma resolve (he : m.entry? v = some e) : resolveVersionEntry host d (.number v) = .ok (v, .version v, e) := by
  obtain ⟨hmem, rfl⟩ := entry?_mem he
  obtain ⟨hlow, hh⟩ := h.range e hmem
  have hk : drawingVersionKey e.v = .ok (.version e.v) := by
    rw [drawingVersionKey, if_neg (by omega), if_neg (by omega)]
  have hl : loadManifest host d = .ok m := by rw [loadManifest, hm]
  have hr : resolveVersion host d (.number e.v) = .ok (e.v, .version e.v) := by
    rw [resolveVersion, hl]
    simp [VersionSelector.pick, he, hk, bind, Except.bind, pure, Except.pure]
  rw [resolveVersionEntry, hr, hl]
  simp [he, bind, Except.bind, pure, Except.pure]

lemma verify_unmarked (hv : v ∈ m.numbers) (hu : m.marked v = false) : verifySelectedBundle host d v = .ok () := by
  obtain ⟨e, he⟩ := entry?_of_mem hv
  have hn : namesBundle e.note = false := by simpa [marked, he] using hu
  rw [verifySelectedBundle, h.resolve hm he]
  simp only [bind, Except.bind, hn]
  rfl

variable (hb : ∀ digest, d.objects (.bundle digest) = none)
include hb

lemma verify_marked (hu : m.marked v = true) : verifySelectedBundle host d v ≠ .ok () := by
  intro hok
  obtain ⟨e, he, hn⟩ := (any_eq_true _ _).mp hu
  rw [verifySelectedBundle, h.resolve hm he] at hok
  simp only [bind, Except.bind, hn] at hok
  obtain ⟨⟨w, key, f⟩, hf, hr⟩ := except_bind_ok hok
  rw [h.resolve hm he] at hf
  cases hf
  simp only [hn] at hr
  obtain ⟨key, hk, hg⟩ := except_bind_ok hr
  obtain ⟨raw, hraw, -⟩ := except_bind_ok hg
  unfold graphBundleKey at hk
  split_ifs at hk
  cases hk
  simp only [get, hb] at hraw
  cases hraw

lemma unmarked_of_verified (hv : verifySelectedBundle host d v = .ok ()) : m.marked v = false := by
  by_contra hmr
  exact h.verify_marked hm hb ((Bool.not_eq_false _).mp hmr) hv

end

variable {t : ℤ}

lemma redoTarget_eq (hc : OnChain (parentOf m.versions) m.latest t)
    (ht : parentOf m.versions t = some m.head) : redoTarget m = some t := by
  refine findChild_complete h.decreasing (fun _ => number_of_parentOf) (by simp) ?_ hc ht
  have hle := length_filter_le (fun x => decide (x ≤ m.latest)) m.numbers
  simp only [numbers, length_map] at hle ⊢
  omega

lemma number_of_parent (ht : parentOf m.versions t = some p) : t ∈ m.numbers ∧ p ∈ m.numbers := by
  obtain ⟨e, he, rfl, hp⟩ := parentOf_some ht
  exact ⟨mem_map_of_mem he, (h.parents e he _ hp).1⟩

end Navigable

lemma Navigable.append (h : Navigable host d m)
    (hwf : WellFormed host d' (m.append e)) (hlt : m.latest < e.v) (hr : 1 ≤ e.v ∧ e.v ≤ 99999999)
    (hp : ∀ p, e.parent = some p → p ∈ m.numbers) : Navigable host d' (m.append e) where
  wellFormed := hwf
  range f hf := by
    rcases mem_append.mp hf with hf | hf
    · exact h.range f hf
    · rw [mem_singleton.mp hf]
      exact hr
  parents f hf p hpar := by
    have hn : (m.append e).numbers = m.numbers ++ [e.v] := by
      simp [Manifest.numbers, Manifest.append]
    rw [hn]
    rcases mem_append.mp hf with hf | hf
    · obtain ⟨hmem, hle⟩ := h.parents f hf p hpar
      exact ⟨mem_append_left _ hmem, hle⟩
    rw [mem_singleton.mp hf] at hpar ⊢
    have hmem := hp p hpar
    exact ⟨mem_append_left _ hmem, (h.wellFormed.latest_max p hmem).trans_lt hlt⟩
  chain := onChain_refl _
  free := h.free
  unmarked hne := absurd rfl hne

lemma NavInv.move (h : NavInv host d) (hm : d.manifest = some m)
    (hc : OnChain (parentOf m.versions) m.latest v) (hv : verifySelectedBundle host d v = .ok ()) :
    NavInv host (d.save { m with head := v }) where
  noBundles := h.noBundles
  navigable m' hm' := by
    cases hm'
    have hn := h.navigable m hm
    have hu := hn.unmarked_of_verified hm h.noBundles hv
    exact ⟨hn.wellFormed.save rfl rfl (verifySelectedBundle_mem hm hv), hn.range, hn.parents, hc,
      hn.free, fun _ => hu⟩

/-- The calls considered: no checkout is ever taken, and a declared parent is in the manifest. -/
def Navigates (d : Drawing) (c : Call) : Prop :=
  match c.op with
  | .ingest _ _ => True
  | .put a => ∃ parent, a.parentVersion.toInt = .ok parent ∧
      ∀ p, parent = some p → p ∈ d.entries.map (·.v)
  | .undo _ _ => True
  | .redo _ _ => True
  | .acquire _ _ _ _ => False
  | .release _ _ => False

lemma NavInv.plain {graph : Bool} {now : Time} (h : NavInv host d)
    (hg : graph = true → ∃ m, d.manifest = some m ∧ isActive m.checkout now) : graph = false := by
  cases graph with
  | false => rfl
  | true =>
    obtain ⟨m, hm, ha⟩ := hg rfl
    rw [(h.navigable m hm).free] at ha
    cases ha

lemma Effect.navInv {r : Except StoreError Answer} (heff : Effect host d c r d')
    (h : NavInv host d) (hc : Navigates d c) : NavInv host d' := by
  have hi : Inv host d' := heff.inv fun m hm => (h.navigable m hm).wellFormed
  cases heff with
  | raised hm hg hgr =>
    have hpl := h.plain hgr
    refine ⟨fun digest => (hg.bundles hpl digest).trans (h.noBundles digest), ?_⟩
    intro m' hm'
    exact { h.navigable m' (hm ▸ hm') with wellFormed := hi m' hm' }
  | @ingested data precondition hop hm hv =>
    refine ⟨fun digest => ?_, fun m' hm' => ?_⟩
    · simpa [save, write] using h.noBundles digest
    refine ⟨hi m' hm', ?_, ?_, ?_, ?_, ?_⟩ <;> cases hm'
    · simp [initialManifest]
    · simp [initialManifest]
    · exact onChain_refl _
    · rfl
    · exact fun hne => absurd rfl hne
  | replayed => exact h
  | @published a r m e v parent b d' fields hop hm hr hp ha hbn hlt hrn he hm' hg =>
    have hpl := h.plain fun hb => ⟨m, hm, hbn hb⟩
    refine ⟨fun digest => (hg.bundles hpl digest).trans (h.noBundles digest), ?_⟩
    intro m'' hm''
    rw [hm'] at hm''
    cases hm''
    have hpar : ∀ p, e.parent = some p → p ∈ m.numbers := by
      intro p hep
      rw [Navigates, hop] at hc
      obtain ⟨parent', hp', hmem⟩ := hc
      cases hp.symm.trans hp'
      rw [entries_some hm] at hmem
      exact hmem p (by rw [← hep, he]; rfl)
    subst he
    exact (h.navigable m hm).append (hi _ hm') hlt hrn hpar
  | undone hop hm ha he hp hv =>
    have hn := h.navigable _ hm
    refine h.move hm (hn.chain.tail ?_) hv
    rw [hn.parentOf_entry he, hp]
  | redone hop hm ha hne ht hv =>
    exact h.move hm (findChild_sound ht).1 hv
  | granted hop => simp [Navigates, hop] at hc
  | denied hop => simp [Navigates, hop] at hc
  | cleared hop => simp [Navigates, hop] at hc
  | notCleared hop => simp [Navigates, hop] at hc

lemma navInv_run {calls : List Call} (hn : Along (step host) Navigates absent calls) :
    NavInv host (run host calls) :=
  invariant_along ⟨fun _ => rfl, fun m hm => by cases hm⟩
    (fun d c => (step_effect host d c).navInv) calls hn

def Call.IsUndo (c : Call) : Prop := ∃ holder fence, c.op = .undo holder fence

def Call.IsRedo (c : Call) : Prop := ∃ holder fence, c.op = .redo holder fence

section

variable (hm : d.manifest = some m)
include hm

lemma Drawing.save_self : d.save m = d := by
  cases d
  cases hm
  rfl

lemma exec_unguarded {α : Type} (hf : m.checkout = none)
    (holder : Option String) (fence : Option ℤ) (now : Time) (action : String)
    (f : Manifest → StoreM α) (faults : List Bool) :
    exec (legacyCheckoutGuard host false none do
      let m ← read (fun s => loadManifest host s.drawing)
      read (fun _ => authorizeCheckoutView m.checkout holder fence now action)
      f m) ⟨d, faults⟩ = exec (f m) ⟨d, faults⟩ := by
  have ha : authorizeCheckoutView m.checkout holder fence now action = .ok () := by
    simp [authorizeCheckoutView, hf]
  rw [legacyCheckoutGuard, exec_bind_ok (exec_refuse_neg (by simp [hm])),
    exec_bind_ok (exec_refuse_neg (by simp)), exec_read_bind (a := m) (by simp [loadManifest, hm]),
    exec_read_bind (a := ()) (by exact ha)]

lemma step_undo (hfr : m.checkout = none) (hu : c.IsUndo)
    (hf : c.faults = []) (he : m.entry? m.head = some e) (hp : e.parent = some p)
    (hv : verifySelectedBundle host d p = .ok ()) :
    step host d c = (.ok (.version p), d.save { m with head := p }) := by
  obtain ⟨holder, fence, hop⟩ := hu
  have hec : exec (undo host holder fence c.now) ⟨d, []⟩ = (.ok p, ⟨d.save { m with head := p }, []⟩) := by
    rw [undo, exec_unguarded hm hfr, exec_read_bind (a := p) (by simp [he, hp]),
      exec_read_bind (a := ()) (by exact hv), saveManifest, exec_bind_ok (exec_attempt _ _)]
    rfl
  simp only [step, perform, hop, hf, map_eq_pure_bind]
  rw [exec_bind_ok hec]
  rfl

lemma step_redo {t : ℤ} (hfr : m.checkout = none) (hr : c.IsRedo)
    (hf : c.faults = []) (hne : m.head ≠ m.latest) (ht : redoTarget m = some t)
    (hv : verifySelectedBundle host d t = .ok ()) :
    step host d c = (.ok (.version t), d.save { m with head := t }) := by
  obtain ⟨holder, fence, hop⟩ := hr
  have he : exec (redo host holder fence c.now) ⟨d, []⟩ = (.ok t, ⟨d.save { m with head := t }, []⟩) := by
    rw [redo, exec_unguarded hm hfr, exec_bind_ok (exec_refuse_neg (by exact hne)),
      exec_read_bind (a := t) (by simp [ht]), exec_read_bind (a := ()) (by exact hv), saveManifest,
      exec_bind_ok (exec_attempt _ _)]
    rfl
  simp only [step, perform, hop, hf, map_eq_pure_bind]
  rw [exec_bind_ok he]
  rfl

lemma redo_succeeded (hr : c.IsRedo) (hs : (step host d c).1 = .ok a) :
    ∃ t, m.head ≠ m.latest ∧ redoTarget m = some t ∧ verifySelectedBundle host d t = .ok () ∧
      (step host d c).2 = d.save { m with head := t } := by
  obtain ⟨holder, fence, hop⟩ := hr
  have he := step_effect host d c
  rw [hs] at he
  generalize (step host d c).2 = d' at he ⊢
  cases he with
  | redone hop' hm' ha hne ht hv =>
    cases hm.symm.trans hm'
    exact ⟨_, hne, ht, hv, rfl⟩
  | _ => cases hop.symm.trans ‹c.op = _›

end

section

variable (h : NavInv host d) (hm : d.manifest = some m) {rs us : List Call}
include h hm

lemma NavInv.undone (hu : u.IsUndo) (hus : (step host d u).1 = .ok a) :
    ∃ p, parentOf m.versions m.head = some p ∧ m.marked p = false ∧
      (step host d u).2 = d.save { m with head := p } ∧
      NavInv host (d.save { m with head := p }) := by
  obtain ⟨holder, fence, hop⟩ := hu
  have hn := h.navigable m hm
  have heff := step_effect host d u
  rw [hus] at heff
  generalize (step host d u).2 = d' at heff ⊢
  cases heff with
  | undone hop' hm' ha he hp hv =>
    cases hm.symm.trans hm'
    have hpar : parentOf m.versions m.head = some _ := (hn.parentOf_entry he).trans hp
    exact ⟨_, hpar, hn.unmarked_of_verified hm h.noBundles hv, rfl, h.move hm (hn.chain.tail hpar) hv⟩
  | _ => cases hop.symm.trans ‹u.op = _›

lemma redo_after_undo (hu : u.IsUndo) (hus : (step host d u).1 = .ok a) (hr : r.IsRedo) (hf : r.faults = []) :
    (m.marked m.head = false → step host (step host d u).2 r = (.ok (.version m.head), d)) ∧
    (m.marked m.head = true → ∃ e, (step host (step host d u).2 r).1 = .error e) := by
  obtain ⟨p, hp, -, hd, hmv⟩ := h.undone hm hu hus
  have hn := h.navigable m hm
  have hn' := hmv.navigable _ rfl
  have ht : redoTarget { m with head := p } = some m.head := hn'.redoTarget_eq hn.chain hp
  have hmr : marked { m with head := p } m.head = m.marked m.head := rfl
  rw [hd]
  constructor
  · intro hu
    have hne : p ≠ m.latest := by
      have hlt := hn.decreasing _ _ hp
      have hle := hn.wellFormed.latest_max _ hn.wellFormed.head_mem
      omega
    have hv := hn'.verify_unmarked rfl hn.wellFormed.head_mem (hmr.trans hu)
    rw [step_redo (m := { m with head := p }) rfl hn.free hr hf hne ht hv]
    exact Prod.ext rfl (save_self hm)
  · intro hu
    cases ha : (step host (d.save { m with head := p }) r).1 with
    | error e => exact ⟨e, rfl⟩
    | ok a =>
      obtain ⟨t, -, ht', hv, -⟩ := redo_succeeded rfl hr ha
      cases ht.symm.trans ht'
      exact absurd hv (hn'.verify_marked rfl hmv.noBundles (hmr.trans hu))

lemma undo_after_redo (hr : r.IsRedo) (hrs : (step host d r).1 = .ok a) (hu : u.IsUndo) (hf : u.faults = []) :
    step host (step host d r).2 u = (.ok (.version m.head), d) := by
  obtain ⟨t, hne, ht, hv, hd⟩ := redo_succeeded hm hr hrs
  have hn := h.navigable m hm
  obtain ⟨hc, hpar⟩ := findChild_sound ht
  have hmv : NavInv host (d.save { m with head := t }) := h.move hm hc hv
  have hn' := hmv.navigable _ rfl
  obtain ⟨e, he⟩ := entry?_of_mem (hn.number_of_parent hpar).1
  have hp : e.parent = some m.head := by rw [← hn.parentOf_entry he, hpar]
  have hver : verifySelectedBundle host (d.save { m with head := t }) m.head = .ok () :=
    hn'.verify_unmarked rfl hn.wellFormed.head_mem (hn.unmarked hne)
  rw [hd, step_undo (m := { m with head := t }) rfl hn.free hu hf he hp hver]
  exact Prod.ext rfl (save_self hm)

lemma redo_succeeds_iff (hr : r.IsRedo) (hf : r.faults = []) :
    (∃ v, (step host d r).1 = .ok (.version v)) ↔
      m.head ≠ m.latest ∧ ∀ t, OnChain (parentOf m.versions) m.latest t →
        parentOf m.versions t = some m.head → m.marked t = false := by
  have hn := h.navigable m hm
  constructor
  · rintro ⟨v, hv⟩
    obtain ⟨t, hne, ht, hver, -⟩ := redo_succeeded hm hr hv
    refine ⟨hne, fun t' hc hp => ?_⟩
    cases (hn.redoTarget_eq hc hp).symm.trans ht
    exact hn.unmarked_of_verified hm h.noBundles hver
  · rintro ⟨hne, ha⟩
    rcases hn.chain.cases_tail with he | ⟨t, hc, hp⟩
    · exact absurd he.symm hne
    · have hver := hn.verify_unmarked hm (hn.number_of_parent hp).1 (ha t hc hp)
      exact ⟨t, by rw [step_redo hm hn.free hr hf hne (hn.redoTarget_eq hc hp) hver]⟩

lemma undos_redos (hh : m.marked m.head = false) (hlen : us.length = rs.length) (hus : ∀ u ∈ us, u.IsUndo)
    (hrs : ∀ r ∈ rs, r.IsRedo ∧ r.faults = []) (hok : ∀ x ∈ trace (step host) d us, ∃ a, x.2 = .ok a) :
    after (step host) d (us ++ rs) = d ∧
      ∀ x ∈ trace (step host) (after (step host) d us) rs, ∃ a, x.2 = .ok a := by
  -- from the inside out: the first undo is taken back by the last redo
  induction us generalizing d m rs with
  | nil =>
    cases length_eq_zero_iff.mp hlen.symm
    exact ⟨rfl, by simp⟩
  | cons u us ih =>
    obtain ⟨rs, r, rfl⟩ : ∃ rs' r, rs = rs' ++ [r] :=
      eq_nil_or_concat' rs |>.resolve_left (by rintro rfl; cases hlen)
    obtain ⟨a, ha⟩ := hok _ (by rw [trace_cons]; exact mem_cons_self)
    have hu := hus u mem_cons_self
    obtain ⟨p, hp, hi, hd, hmv⟩ := h.undone hm hu ha
    rw [← hd] at hmv
    have hr := hrs r (by simp)
    obtain ⟨hb, hans⟩ := ih hmv (m := { m with head := p }) (by rw [hd]; rfl) hi
      (by simpa using hlen) (fun u hu => hus u (mem_cons_of_mem _ hu))
      (fun r hr => hrs r (mem_append_left _ hr))
      (fun x hx => hok x (by rw [trace_cons]; exact mem_cons_of_mem _ hx))
    have hl := (redo_after_undo h hm hu ha hr.1 hr.2).1 hh
    rw [after_append] at hb
    constructor
    · rw [cons_append, after_cons, ← append_assoc, after_append, after_append, hb, after_cons, after_nil, hl]
    intro x hx
    rw [after_cons, trace_append, hb, trace_cons, trace_nil, hl] at hx
    rcases mem_append.mp hx with hx | hx
    · exact hans x hx
    · rw [mem_singleton.mp hx]
      exact ⟨_, rfl⟩

end

theorem undo_redo_navigation (host : Host) (calls : List Call)
    (hnav : Along (step host) Navigates absent calls) (m : Manifest) (hm : (run host calls).manifest = some m) :
    OnChain (parentOf m.versions) m.latest m.head ∧
    (∀ r : Call, r.IsRedo → r.faults = [] →
      ((∃ v, (step host (run host calls) r).1 = .ok (.version v)) ↔
        m.head ≠ m.latest ∧ ∀ t, OnChain (parentOf m.versions) m.latest t →
          parentOf m.versions t = some m.head → m.marked t = false)) ∧
    (∀ (u r : Call) (a : Answer), u.IsUndo → (step host (run host calls) u).1 = .ok a →
      r.IsRedo → r.faults = [] →
      (m.marked m.head = false →
        step host (step host (run host calls) u).2 r = (.ok (.version m.head), run host calls)) ∧
      (m.marked m.head = true → ∃ e, (step host (step host (run host calls) u).2 r).1 = .error e)) ∧
    (∀ (r u : Call) (a : Answer), r.IsRedo → (step host (run host calls) r).1 = .ok a →
      u.IsUndo → u.faults = [] →
      step host (step host (run host calls) r).2 u = (.ok (.version m.head), run host calls)) ∧
    ∀ us rs : List Call, us.length = rs.length → (∀ u ∈ us, u.IsUndo) →
      (∀ r ∈ rs, r.IsRedo ∧ r.faults = []) →
      (∀ x ∈ trace (step host) (run host calls) us, ∃ a, x.2 = .ok a) →
      m.marked m.head = false →
      after (step host) (run host calls) (us ++ rs) = run host calls ∧
      ∀ x ∈ trace (step host) (after (step host) (run host calls) us) rs, ∃ a, x.2 = .ok a := by
  have h := navInv_run hnav
  exact ⟨(h.navigable m hm).chain, fun r hr hf => redo_succeeds_iff h hm hr hf,
    fun u r a hu ha hr hf => redo_after_undo h hm hu ha hr hf,
    fun r u a hr ha hu hf => undo_after_redo h hm hr ha hu hf,
    fun us rs hl hus hrs hok hh => undos_redos h hm hh hl hus hrs hok⟩

def branchingCalls : List Call :=
  [{ op := .ingest [1] none, now := 0, later := 0 },
   { op := .put { data := [2], parentVersion := .int 1 }, now := 1, later := 1 },
   { op := .undo none none, now := 2, later := 2 },
   { op := .put { data := [3], parentVersion := .int 1 }, now := 3, later := 3 }]

lemma branchingCalls_navigate : Along (step sampleHost) Navigates absent branchingCalls :=
  ⟨trivial, ⟨some 1, rfl, by decide⟩, trivial, ⟨some 1, rfl, by decide⟩, trivial⟩

def undoCall : Call := { op := .undo none none, now := 4, later := 4 }

def redoCall : Call := { op := .redo none none, now := 5, later := 5 }

theorem undo_redo_navigation_branch :
    ∃ m, (run sampleHost branchingCalls).manifest = some m ∧
      OnChain (parentOf m.versions) m.latest m.head ∧ m.numbers = [1, 2, 3] ∧
      step sampleHost (step sampleHost (run sampleHost branchingCalls) undoCall).2 redoCall =
        (.ok (.version 3), run sampleHost branchingCalls) := by
  obtain ⟨m, hm⟩ : ∃ m, (run sampleHost branchingCalls).manifest = some m := isSome_iff_exists.mp (by decide)
  have hn : (run sampleHost branchingCalls).manifest.map numbers = some [1, 2, 3] := by
    decide
  have hh : (run sampleHost branchingCalls).manifest.map (·.head) = some 3 := by decide
  have hmr : (run sampleHost branchingCalls).manifest.map (fun m => m.marked m.head) = some false := by decide
  rw [hm] at hn hh hmr
  simp only [map_some, some.injEq] at hn hh hmr
  have h := undo_redo_navigation sampleHost branchingCalls branchingCalls_navigate m hm
  refine ⟨m, hm, h.1, hn, ?_⟩
  rw [← hh]
  exact (h.2.2.1 undoCall redoCall (.version 1) ⟨none, none, rfl⟩ (by decide) ⟨none, none, rfl⟩ rfl).1 hmr

-- a plain write may carry a note that reads as a bundle reference
def notedCalls : List Call :=
  [{ op := .ingest [1] none, now := 0, later := 0 },
   { op := .put { data := [2], parentVersion := .int 1, info := { note := some "solar-bundle:x" } },
     now := 1, later := 1 }]

theorem redo_refuses_noted_version :
    Along (step sampleHost) Navigates absent notedCalls ∧
    (step sampleHost (run sampleHost notedCalls) undoCall).1 = .ok (.version 1) ∧
    (step sampleHost (run sampleHost notedCalls) undoCall).2.manifest.map (fun m => (m.head, m.latest))
      = some (1, 2) ∧
    (step sampleHost (step sampleHost (run sampleHost notedCalls) undoCall).2 redoCall).1 =
      .error (.valueError "invalid bundle digest") :=
  ⟨⟨trivial, ⟨some 1, rfl, by decide⟩, trivial⟩, by decide, by decide, by decide⟩

end LeafWeb.Store.Legacy
