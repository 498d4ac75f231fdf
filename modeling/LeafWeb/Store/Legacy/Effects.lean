import LeafWeb.Store.Legacy.Operations

namespace LeafWeb.Store.Legacy

open Lib.Procedure Lib.ParentChain Function

-- nothing but mutation plans differs
def SameBlobs (d d' : Drawing) : Prop := ∀ k, k.isPlan = false → d'.objects k = d.objects k

structure Grows (data : Bytes) (graph : Bool) (d d' : Drawing) : Prop where
  versions : ∀ v, d'.objects (.version v) = d.objects (.version v) ∨
    d.objects (.version v) = none ∧ d'.objects (.version v) = some data
  bundles : graph = false → ∀ digest, d'.objects (.bundle digest) = d.objects (.bundle digest)

lemma SameBlobs.refl (d : Drawing) : SameBlobs d d := fun _ _ => rfl

lemma sameBlobs_save (d : Drawing) (m : Manifest) : SameBlobs d (d.save m) := fun _ _ => rfl

variable {d d' d'' : Drawing} {data b raw : Bytes} {graph adopted plain creating strictOwner : Bool}
  {v w latest : ℤ} {a : PutArgs} {m : Manifest} {k : ObjectKey} {holder : Option String}

lemma SameBlobs.trans (h : SameBlobs d d') (h' : SameBlobs d' d'') :
    SameBlobs d d'' := fun k hk => (h' k hk).trans (h k hk)

structure Unnoticed (d d' : Drawing) : Prop where
  manifest : d'.manifest = d.manifest
  blobs : SameBlobs d d'

lemma Unnoticed.refl (d : Drawing) : Unnoticed d d := ⟨rfl, SameBlobs.refl d⟩

lemma Unnoticed.trans (h : Unnoticed d d') (h' : Unnoticed d' d'') : Unnoticed d d'' :=
  ⟨h'.manifest.trans h.manifest, h.blobs.trans h'.blobs⟩

lemma SameBlobs.grows (h : SameBlobs d d') (data : Bytes) (graph : Bool) : Grows data graph d d' :=
  ⟨fun v => .inl (h (.version v) rfl), fun _ digest => h (.bundle digest) rfl⟩

lemma Grows.trans (h : Grows data graph d d') (h' : Grows data graph d' d'') : Grows data graph d d'' where
  versions v := by
    rcases h.versions v with he | ⟨hn, hs⟩ <;> rcases h'.versions v with he' | ⟨hn', hs'⟩
    · exact .inl (he'.trans he)
    · exact .inr ⟨he ▸ hn', hs'⟩
    · exact .inr ⟨hn, he'.trans hs⟩
    · cases hs.symm.trans hn'
  bundles hg digest := (h'.bundles hg digest).trans (h.bundles hg digest)

lemma Grows.keeps (h : Grows data graph d d') (hb : d.objects (.version v) = some b) :
    d'.objects (.version v) = some b := by
  rcases h.versions v with he | ⟨hn, _⟩
  · rw [he, hb]
  · cases hb.symm.trans hn

def Call.payload (c : Call) : Bytes :=
  match c.op with
  | .ingest data _ => data
  | .put a => a.data
  | _ => []

variable {c : Call} {precondition : Option Bool}

lemma payload_ingest (hop : c.op = .ingest data precondition) : c.payload = data := by
  rw [Call.payload, hop]

lemma payload_put (hop : c.op = .put a) : c.payload = a.data := by
  rw [Call.payload, hop]

inductive Effect (host : Host) (d : Drawing) (c : Call) : Except StoreError Answer → Drawing → Prop
  | raised {e : StoreError} {graph : Bool} {d' : Drawing} (hm : d'.manifest = d.manifest)
      (hg : Grows c.payload graph d d')
      (hactive : graph = true → ∃ m, d.manifest = some m ∧ isActive m.checkout c.now) :
      Effect host d c (.error e) d'
  | ingested {data : Bytes} {precondition : Option Bool} (hop : c.op = .ingest data precondition)
      (hm : d.manifest = none) (hv : d.objects (.version 1) = none) :
      Effect host d c (.ok (.version 1)) ((d.write (.version 1) data).save (initialManifest host data c.later))
  | replayed {a : PutArgs} {r : PutRequest} {m : Manifest} {v : ℤ} (hop : c.op = .put a)
      (hm : d.manifest = some m) (hr : preparePut host a = .ok r) (hb : r.bundle.isSome)
      (hauth : authorizeCheckoutView m.checkout a.holder a.fence c.now "publish a version" = .ok ())
      (hactive : isActive m.checkout c.now) : Effect host d c (.ok (.version v)) d
  | published {a : PutArgs} {r : PutRequest} {m : Manifest} {e : VersionEntry} {v : ℤ}
      {parent : Option ℤ} {b : Bytes} {d' : Drawing} (fields : Option (String × ℤ))
      (hop : c.op = .put a) (hm : d.manifest = some m) (hr : preparePut host a = .ok r)
      (hp : a.parentVersion.toInt = .ok parent)
      (hauth : authorizeCheckoutView m.checkout a.holder a.fence c.now "publish a version" = .ok ())
      (hbundle : r.bundle.isSome → isActive m.checkout c.now)
      (hlt : m.latest < v) (hrange : 1 ≤ v ∧ v ≤ 99999999)
      (he : e = { newEntry host a r v parent c.later with planFields := fields })
      (hm' : d'.manifest = some (m.append e)) (hg : Grows a.data r.bundle.isSome d d')
      (hb : d'.objects (.version v) = some b) (hlen : b.length = a.data.length)
      (hsha : host.sha256 b = host.sha256 a.data)
      (hnew : b = a.data ∨ d.objects (.version v) = some b) : Effect host d c (.ok (.version v)) d'
  | undone {holder : Option String} {fence : Option ℤ} {m : Manifest} {e : VersionEntry} {p : ℤ}
      (hop : c.op = .undo holder fence) (hm : d.manifest = some m)
      (hauth : authorizeCheckoutView m.checkout holder fence c.now "undo" = .ok ())
      (he : m.entry? m.head = some e) (hp : e.parent = some p)
      (hv : verifySelectedBundle host d p = .ok ()) :
      Effect host d c (.ok (.version p)) (d.save { m with head := p })
  | redone {holder : Option String} {fence : Option ℤ} {m : Manifest} {t : ℤ}
      (hop : c.op = .redo holder fence) (hm : d.manifest = some m)
      (hauth : authorizeCheckoutView m.checkout holder fence c.now "redo" = .ok ())
      (hne : m.head ≠ m.latest) (ht : redoTarget m = some t)
      (hv : verifySelectedBundle host d t = .ok ()) :
      Effect host d c (.ok (.version t)) (d.save { m with head := t })
  | granted {holder : String} {ttl expectedFence : Option ℤ} {strictOwner : Bool} {m : Manifest}
      {expires : Time} (hop : c.op = .acquire holder ttl expectedFence strictOwner)
      (hm : d.manifest = some m) (hg : grantable m holder expectedFence strictOwner c.now = true)
      (he : addTtl c.now ttl = .ok expires) :
      Effect host d c (.ok (.generation (some (nextFence m))))
        (d.save { m with
          checkoutFence := some (nextFence m)
          checkout := some ⟨holder, c.now, expires, some (nextFence m)⟩ })
  | denied {holder : String} {ttl expectedFence : Option ℤ} {strictOwner : Bool}
      (hop : c.op = .acquire holder ttl expectedFence strictOwner) :
      Effect host d c (.ok (.generation none)) d
  | cleared {holder : Option String} {expectedFence : Option ℤ} {m : Manifest} {co : Checkout}
      (hop : c.op = .release holder expectedFence) (hm : d.manifest = some m)
      (hc : m.checkout = some co) (hr : releasable co holder expectedFence c.now = true) :
      Effect host d c (.ok (.cleared true)) (d.save { m with checkout := none })
  | notCleared {holder : Option String} {expectedFence : Option ℤ}
      (hop : c.op = .release holder expectedFence) : Effect host d c (.ok (.cleared false)) d

variable {host : Host} {s : Session} {later : Time}

lemma loadManifest_ok (h : loadManifest host d = .ok m) : d.manifest = some m := by
  unfold loadManifest at h
  split at h
  · cases h
    assumption
  · cases h

structure Stored (k : ObjectKey) (data : Bytes) (d d' : Drawing) : Prop where
  manifest : d'.manifest = d.manifest
  other : ∀ k', k' ≠ k → d'.objects k' = d.objects k'
  same : d'.objects k = d.objects k ∨ d.objects k = none ∧ d'.objects k = some data

lemma Stored.refl (k : ObjectKey) (data : Bytes) (d : Drawing) : Stored k data d d :=
  ⟨rfl, fun _ _ => rfl, .inl rfl⟩

lemma stored_write (hk : d.objects k = none) (hd : d' = d.write k data) : Stored k data d d' := by
  subst hd
  exact ⟨rfl, fun k' hk' => by simp [Drawing.write, update_of_ne hk'], .inr ⟨hk, by simp [Drawing.write]⟩⟩

lemma Stored.unnoticed (h : Stored k data d d') (hk : k.isPlan = true) : Unnoticed d d' :=
  ⟨h.manifest, fun k' hk' => h.other k' (fun he => by simp [he, hk] at hk')⟩

lemma Stored.grows (h : Stored (.version v) data d d') (graph : Bool) : Grows data graph d d' where
  versions w := by
    by_cases hw : w = v
    · subst hw
      exact h.same
    · exact .inl (h.other _ (by simpa using hw))
  bundles _ _ := h.other _ (by simp)

lemma Stored.grows_bundle {digest : String} (h : Stored (.bundle digest) raw d d') (data : Bytes) :
    Grows data true d d' where
  versions _ := .inl (h.other _ (by simp))
  bundles hg := by cases hg

abbrev Stores (s : Session) (k : ObjectKey) (data : Bytes) (body : StoreM Unit) : Prop :=
  Triple s body (fun _ t => Stored k data s.drawing t.drawing ∧ t.drawing.objects k = some data)
    (fun _ t => Stored k data s.drawing t.drawing)

lemma triple_put (hk : s.drawing.objects k = none) : Stores s k data (put k data) := by
  apply triple_attempt
  · intro t ht
    exact ⟨stored_write hk ht, by simp [ht, Drawing.write]⟩
  intro t ht
  rw [ht]
  exact Stored.refl k data _

lemma triple_putIfAbsentOrVerify (k : ObjectKey) (data : Bytes) :
    Stores s k data (putIfAbsentOrVerify host k data) := by
  have hc : ∀ t : Session, Stored k data s.drawing t.drawing →
      Triple t (do
        let existing ← read (fun s => get host k s.drawing)
        refuse (fun _ => existing ≠ data) (fun _ =>
          StoreError.immutableConflict "immutable object already exists with different content"))
        (fun _ t => Stored k data s.drawing t.drawing ∧ t.drawing.objects k = some data)
        (fun _ t => Stored k data s.drawing t.drawing) := by
    intro t ht
    refine triple_read_bind (fun _ _ => ht) ?_
    intro existing hg
    refine triple_read (fun _ ha => ?_) (fun _ _ => ht)
    split_ifs at ha with hne
    refine ⟨ht, ?_⟩
    unfold get at hg
    split at hg
    next b hb =>
      cases hg
      rw [hb, not_not.mp hne]
    · cases hg
  refine triple_read_bind (by rintro _ ⟨⟩) ?_
  intro before hb
  cases hb
  cases hk : s.drawing.objects k with
  | none => exact triple_bind (triple_put hk) (fun _ t ht => hc t ht.1)
  | some b => exact hc s (Stored.refl k data _)

lemma triple_putOrVerifyBlob (k : ObjectKey) (data : Bytes) (digest : String) :
    Stores s k data (putOrVerifyBlob host k data digest) := by
  refine triple_bind (triple_putIfAbsentOrVerify k data) ?_
  intro _ t ht
  refine triple_read_bind (fun _ _ => ht.1) ?_
  intro existing _
  refine triple_read (fun _ _ => ht) (fun _ _ => ht.1)

def SlotFor (host : Host) (d : Drawing) (data : Bytes) (v : ℤ) (adopted : Bool) : Prop :=
  (adopted = false ∧ d.objects (.version v) = none) ∨
    (adopted = true ∧ ∃ b, d.objects (.version v) = some b ∧ b.length = data.length ∧
      host.sha256 b = host.sha256 data)

lemma firstSlot_ok {n : ℕ} (hv : 1 ≤ v ∧ v ≤ 99999999) (h : firstSlot host d data plain n v = .ok (w, adopted)) :
    v ≤ w ∧ (1 ≤ w ∧ w ≤ 99999999) ∧ SlotFor host d data w adopted := by
  induction n generalizing v with
  | zero => cases h
  | succ n ih =>
    unfold firstSlot at h
    split at h
    next hn =>
      cases h
      exact ⟨le_refl _, hv, .inl ⟨rfl, hn⟩⟩
    rename_i b hb
    split_ifs at h with hp hm
    · cases h
      exact ⟨le_refl _, hv, .inr ⟨rfl, b, hb, hm.1, hm.2⟩⟩
    obtain ⟨k, hk, hrs⟩ := except_bind_ok h
    obtain ⟨hle, hr, hs⟩ := ih (drawingVersionKey_ok hk) hrs
    exact ⟨by omega, hr, hs⟩

lemma reserveSlot_ok (h : reserveSlot host d data plain latest = .ok (v, adopted)) :
    latest < v ∧ (1 ≤ v ∧ v ≤ 99999999) ∧ SlotFor host d data v adopted := by
  obtain ⟨k, hk, hrs⟩ := except_bind_ok h
  obtain ⟨hle, hr, hs⟩ := firstSlot_ok (drawingVersionKey_ok hk) hrs
  exact ⟨by omega, hr, hs⟩

structure Published (host : Host) (data : Bytes) (graph : Bool) (v : ℤ) (d d' : Drawing) : Prop where
  manifest : d'.manifest = d.manifest
  grows : Grows data graph d d'
  blob : ∃ b, d'.objects (.version v) = some b ∧ b.length = data.length ∧
    host.sha256 b = host.sha256 data ∧ (b = data ∨ d.objects (.version v) = some b)

lemma Published.of_grows (h : Published host data graph v d d') (hm : d''.manifest = d'.manifest)
    (hg : Grows data graph d' d'') : Published host data graph v d d'' := by
  obtain ⟨b, hb, hr⟩ := h.blob
  exact ⟨hm.trans h.manifest, h.grows.trans hg, b, hg.keeps hb, hr⟩

lemma published_of_stored (h : Stored (.version v) data d d')
    (hb : d'.objects (.version v) = some data) : Published host data graph v d d' :=
  ⟨h.manifest, h.grows graph, data, hb, rfl, rfl, .inl rfl⟩

lemma triple_publishObjects {bundle : Option PreparedBundle} (hs : SlotFor host s.drawing data v adopted) :
    Triple s (publishObjects host data bundle m v adopted later)
      (fun _ t => Published host data bundle.isSome v s.drawing t.drawing)
      (fun _ t => t.drawing.manifest = s.drawing.manifest ∧ Grows data bundle.isSome s.drawing t.drawing) := by
  cases bundle with
  | none =>
    rcases hs with ⟨rfl, hn⟩ | ⟨rfl, b, hb, hl, hsha⟩
    · exact (triple_put hn).mono (fun _ t ht => published_of_stored ht.1 ht.2)
        (fun _ t ht => ⟨ht.manifest, ht.grows _⟩)
    · exact ⟨rfl, (SameBlobs.refl _).grows data _, b, hb, hl, hsha, .inr hb⟩
  | some bundle =>
    refine triple_bind ((triple_putOrVerifyBlob (.version v) data _).mono (fun _ _ h => h)
      (fun _ t ht => ⟨ht.manifest, ht.grows _⟩)) ?_
    intro _ t ht
    have hp : Published host data true v s.drawing t.drawing := published_of_stored ht.1 ht.2
    have hbn : Triple t (publishGraphBundle host bundle)
        (fun _ u => Published host data true v s.drawing u.drawing)
        (fun _ u => Published host data true v s.drawing u.drawing) := by
      refine triple_read_bind (fun _ _ => hp) ?_
      intro key hk
      obtain ⟨digest, rfl⟩ : ∃ digest, key = .bundle digest := by
        unfold graphBundleKey at hk
        split_ifs at hk
        cases hk
        exact ⟨_, rfl⟩
      refine (triple_putOrVerifyBlob _ bundle.raw _).mono (fun _ u hu => ?_) (fun _ u hu => ?_)
      · exact hp.of_grows hu.1.manifest (hu.1.grows_bundle data)
      · exact hp.of_grows hu.manifest (hu.grows_bundle data)
    refine triple_bind (hbn.mono (fun _ _ h => h) (fun _ u hu => ⟨hu.manifest, hu.grows⟩)) ?_
    intro _ u hu
    exact triple_read (fun _ _ => hu) (fun _ _ => ⟨hu.manifest, hu.grows⟩)

abbrev Unnoticing {α : Type} (s : Session) (body : StoreM α) : Prop :=
  Triple s body (fun _ t => Unnoticed s.drawing t.drawing) (fun _ t => Unnoticed s.drawing t.drawing)

lemma triple_suppress_delete (v : ℤ) : Unnoticing s (suppress (delete (.plan v))) := by
  refine triple_tryCatch (F := fun _ t => t.drawing = s.drawing)
    (triple_attempt _ _ (fun t ht => ?_) (fun t ht => ht)) ?_
  · rw [ht]
    refine ⟨rfl, fun k hk => update_of_ne ?_ _ _⟩
    rintro rfl
    cases hk
  · intro _ t ht
    apply triple_pure
    rw [ht]
    exact Unnoticed.refl _

lemma triple_storePlan (v : ℤ) (plan : Bytes) : Unnoticing s (storePlan host v plan) := by
  refine triple_tryCatch (F := fun _ t => Unnoticed s.drawing t.drawing) ?_ ?_
  · refine triple_bind ((triple_putIfAbsentOrVerify (.plan v) plan).mono (fun _ _ h => h)
      (fun _ t ht => ht.unnoticed rfl)) ?_
    intro _ t ht
    exact triple_pure (ht.1.unnoticed rfl)
  · intro _ t ht
    refine triple_bind ((triple_suppress_delete v).mono (fun _ _ h => h) (fun _ u hu => ?_)) ?_
    · exact ht.trans hu
    · intro _ u hu
      exact triple_pure (ht.trans hu)

lemma triple_withdrawPlan (v : ℤ) (stored existed : Bool) : Unnoticing s (withdrawPlan v stored existed) := by
  rw [withdrawPlan]
  split_ifs
  · exact triple_suppress_delete v
  · exact triple_pure (Unnoticed.refl _)

lemma triple_commitVersion (m : Manifest) (e : VersionEntry) (fields : Option (String × ℤ))
    (plan : Option Bytes) (he : e.planFields = none) :
    Triple s (commitVersion host m e fields plan)
      (fun _ t => ∃ f, t.drawing.manifest = some (m.append { e with planFields := f }) ∧
        SameBlobs s.drawing t.drawing)
      (fun _ t => Unnoticed s.drawing t.drawing) := by
  have hs : { e with planFields := none } = e := by rw [← he]
  cases plan with
  | none =>
    rw [commitVersion, saveManifest]
    apply triple_attempt
    · intro t ht
      rw [ht]
      exact ⟨none, by rw [hs]; rfl, SameBlobs.refl _⟩
    · intro t ht
      rw [ht]
      exact Unnoticed.refl _
  | some bytes =>
    refine triple_read_bind (fun _ h => by cases h) ?_
    intro existed _
    refine triple_bind (triple_storePlan e.v bytes) ?_
    intro stored t ht
    refine triple_tryCatch (F := fun _ u => u.drawing = t.drawing)
      (triple_attempt _ _ (fun u hu => ?_) (fun u hu => hu)) ?_
    · rw [hu]
      refine ⟨if stored then fields else none, ?_, ht.blobs⟩
      cases stored
      · simp only [Bool.false_eq_true, if_false, hs]
        rfl
      · rfl
    · intro err u hu
      have hc : ∀ w : Session, Unnoticed u.drawing w.drawing → Unnoticed s.drawing w.drawing := by
        intro w hw
        rw [hu] at hw
        exact ht.trans hw
      refine triple_bind ((triple_withdrawPlan e.v stored existed).mono (fun _ w => hc w) (fun _ w => hc w)) ?_
      intro _ w hw
      exact hw

lemma raised_here (e : StoreError) : Effect host d c (.error e) d :=
  .raised rfl ((SameBlobs.refl d).grows _ false) (by simp)

abbrev Effective {α : Type} (host : Host) (s : Session) (c : Call) (answer : α → Answer)
    (body : StoreM α) : Prop :=
  Triple s body (fun a t => Effect host s.drawing c (.ok (answer a)) t.drawing)
    (fun e t => Effect host s.drawing c (.error e) t.drawing)

variable {α β : Type} {answer : α → Answer} {now : Time} {replay fence expectedFence ttl : Option ℤ}

lemma effective_guard {body : StoreM α} (h : Effective host s c answer body) :
    Effective host s c answer (legacyCheckoutGuard host creating precondition body) :=
  triple_refuse_bind (fun _ => raised_here _) fun _ =>
    triple_refuse_bind (fun _ => raised_here _) fun _ => h

lemma effective_read {f : Session → Except StoreError β} {body : β → StoreM α}
    (h : ∀ b, f s = .ok b → Effective host s c answer (body b)) : Effective host s c answer (read f >>= body) :=
  triple_read_bind (fun _ _ => raised_here _) h

lemma triple_saved {a : α} (h : Effect host s.drawing c (.ok (answer a)) (s.drawing.save m)) :
    Effective host s c answer (do saveManifest m; pure a) := by
  refine triple_bind (R := fun _ t => t.drawing = s.drawing.save m)
    (triple_attempt _ _ (fun t ht => ht) (fun t ht => ?_)) ?_
  · rw [ht]
    exact raised_here _
  intro _ t ht
  apply triple_pure
  rw [ht]
  exact h

lemma ingest_effect (hop : c.op = .ingest data precondition) :
    Effective host s c .version (ingestDrawing host data precondition c.later) := by
  refine effective_guard ?_
  refine triple_refuse_bind (fun _ => raised_here _) fun hm => ?_
  refine triple_refuse_bind (fun _ => raised_here _) fun hv => ?_
  have hm' : s.drawing.manifest = none := by simpa using hm
  have hv' : s.drawing.objects (.version 1) = none := by simpa using hv
  have hp := payload_ingest hop
  refine triple_bind (R := fun _ t => t.drawing = s.drawing.write (.version 1) data)
    (triple_attempt _ _ (fun t ht => ht) (fun t ht => ?_)) ?_
  · rw [ht]
    exact raised_here _
  intro _ t ht
  refine triple_bind
    (R := fun _ u => u.drawing = t.drawing.save (initialManifest host data c.later))
    (triple_attempt _ _ (fun u hu => hu) (fun u hu => ?_)) ?_
  · rw [hu, ht]
    have hg : Grows c.payload false s.drawing (s.drawing.write (.version 1) data) := by
      rw [hp]
      exact (stored_write hv' rfl).grows false
    exact .raised rfl hg (by simp)
  · intro _ u hu
    refine triple_pure ?_
    rw [hu, ht]
    exact .ingested hop hm' hv'

lemma replayedApply_active {r : PutRequest} (h : replayedApply a r m now = .ok replay) (hb : r.bundle.isSome) :
    isActive m.checkout now := by
  obtain ⟨b, hb⟩ := Option.isSome_iff_exists.mp hb
  cases hc : m.checkout with
  | none => simp [replayedApply, hb, hc] at h
  | some co =>
    simp only [replayedApply, hb, hc] at h
    split_ifs at h with ha
    simpa using ha

lemma put_effect (hop : c.op = .put a) : Effective host s c .version (putDrawing host a c.now c.later) := by
  have hpay := payload_put hop
  refine effective_read fun r hr => ?_
  refine effective_guard ?_
  refine effective_read fun m hm => ?_
  replace hm := loadManifest_ok hm
  refine effective_read fun _ ha => ?_
  refine effective_read fun replay hrp => ?_
  have hbn := replayedApply_active hrp
  cases replay with
  | some v =>
    have hb : r.bundle.isSome := by
      by_contra hn
      simp only [Option.not_isSome_iff_eq_none] at hn
      simp [replayedApply, hn] at hrp
    exact .replayed hop hm hr hb ha (hbn hb)
  | none =>
    refine effective_read fun _ _ => ?_
    refine effective_read fun ⟨v, adopted⟩ hs => ?_
    obtain ⟨hlt, hrn, hs⟩ := reserveSlot_ok hs
    refine triple_bind ((triple_publishObjects hs).mono (fun _ _ h => h)
      (fun _ t ht => .raised ht.1 (hpay ▸ ht.2) (fun hb => ⟨m, hm, hbn hb⟩))) ?_
    intro _ t ht
    have hrs : ∀ (e : StoreError) (u : Session), Unnoticed t.drawing u.drawing →
        Effect host s.drawing c (.error e) u.drawing := by
      intro e u hu
      exact .raised (hu.manifest.trans ht.manifest) (hpay ▸ ht.grows.trans (hu.blobs.grows _ _))
        (fun hb => ⟨m, hm, hbn hb⟩)
    refine triple_read_bind (fun _ _ => hrs _ t (Unnoticed.refl _)) ?_
    intro parent hp
    refine triple_read_bind (fun _ _ => hrs _ t (Unnoticed.refl _)) ?_
    intro plan _
    refine triple_bind ((triple_commitVersion m _ _ plan rfl).mono (fun _ _ h => h) (fun e u hu => hrs e u hu)) ?_
    rintro _ u ⟨f, hum, hus⟩
    obtain ⟨b, hb, hl, hsha, hnew⟩ := ht.blob
    exact .published f hop hm hr hp ha hbn hlt hrn rfl hum
      (ht.grows.trans (hus.grows _ _)) ((hus (.version v) rfl).trans hb) hl hsha hnew

lemma undo_effect (hop : c.op = .undo holder fence) :
    Effective host s c .version (undo host holder fence c.now) := by
  refine effective_guard ?_
  refine effective_read fun m hm => ?_
  refine effective_read fun _ ha => ?_
  refine effective_read fun p hp => ?_
  refine effective_read fun _ hv => ?_
  split at hp
  · cases hp
  rename_i e he
  split at hp
  · cases hp
  rename_i p' hpar
  cases hp
  exact triple_saved (.undone hop (loadManifest_ok hm) ha he hpar hv)

lemma redo_effect (hop : c.op = .redo holder fence) :
    Effective host s c .version (redo host holder fence c.now) := by
  refine effective_guard ?_
  refine effective_read fun m hm => ?_
  refine effective_read fun _ ha => ?_
  refine triple_refuse_bind (fun _ => raised_here _) ?_
  intro hne
  refine effective_read fun target ht => ?_
  refine effective_read fun _ hv => ?_
  split at ht
  · cases ht
  rename_i v hv'
  cases ht
  exact triple_saved (.redone hop (loadManifest_ok hm) ha hne hv' hv)

lemma acquire_effect {holder : String} (hop : c.op = .acquire holder ttl expectedFence strictOwner) :
    Effective host s c .generation (acquireCheckoutFence host holder ttl expectedFence strictOwner c.now) := by
  refine triple_refuse_bind (fun _ => raised_here _) fun _ => ?_
  refine effective_guard ?_
  refine effective_read fun m hm => ?_
  split_ifs with hg
  · refine effective_read fun expires he => ?_
    exact triple_saved (.granted hop (loadManifest_ok hm) hg he)
  · exact triple_pure (.denied hop)

lemma release_effect (hop : c.op = .release holder expectedFence) :
    Effective host s c .cleared (releaseCheckout host holder expectedFence c.now) := by
  refine effective_guard ?_
  refine effective_read fun m hm => ?_
  cases hc : m.checkout with
  | none => exact triple_pure (.notCleared hop)
  | some co =>
    simp only
    split_ifs with hr
    · exact triple_saved (.cleared hop (loadManifest_ok hm) hc hr)
    · exact triple_pure (.notCleared hop)

lemma perform_effect (host : Host) (s : Session) (c : Call) : Effective host s c id (perform host c) := by
  unfold perform
  cases hop : c.op with
  | ingest data precondition => exact triple_map (ingest_effect hop)
  | put a => exact triple_map (put_effect hop)
  | undo holder fence => exact triple_map (undo_effect hop)
  | redo holder fence => exact triple_map (redo_effect hop)
  | acquire holder ttl expectedFence strictOwner => exact triple_map (acquire_effect hop)
  | release holder expectedFence => exact triple_map (release_effect hop)

theorem step_effect (host : Host) (d : Drawing) (c : Call) :
    Effect host d c (step host d c).1 (step host d c).2 := by
  have h := perform_effect host ⟨d, c.faults⟩ c
  unfold step
  rcases hx : exec (perform host c) ⟨d, c.faults⟩ with ⟨e | a, t⟩
  · exact h.error hx
  · exact h.ok hx

end LeafWeb.Store.Legacy
