import LeafWeb.Store.Legacy.Effects

namespace LeafWeb.Store.Legacy

open Lib.Procedure Lib.Transition List Drawing Manifest

variable {host : Host} {d d' : Drawing} {m m' : Manifest} {e : VersionEntry}

def Manifest.numbers (m : Manifest) : List ℤ := m.versions.map (·.v)

def Drawing.entries (d : Drawing) : List VersionEntry := (d.manifest.map (·.versions)).getD []

def Recorded (host : Host) (d : Drawing) (e : VersionEntry) : Prop :=
  ∃ b, d.objects (.version e.v) = some b ∧ b.length = e.bytes ∧ host.sha256 b = e.sha256

structure WellFormed (host : Host) (d : Drawing) (m : Manifest) : Prop where
  distinct : m.numbers.Nodup
  latest_mem : m.latest ∈ m.numbers
  latest_max : ∀ v ∈ m.numbers, v ≤ m.latest
  head_mem : m.head ∈ m.numbers
  recorded : ∀ e ∈ m.versions, Recorded host d e

def Inv (host : Host) (d : Drawing) : Prop := ∀ m, d.manifest = some m → WellFormed host d m

lemma entries_some (hm : d.manifest = some m) : d.entries = m.versions := by
  simp [entries, hm]

variable {v : ℤ}

lemma entry?_mem (h : m.entry? v = some e) : e ∈ m.versions ∧ e.v = v :=
  ⟨mem_of_find?_eq_some h, by simpa using find?_some h⟩

lemma verifySelectedBundle_mem (hm : d.manifest = some m)
    (h : verifySelectedBundle host d v = .ok ()) : v ∈ m.numbers := by
  obtain ⟨⟨w, key, e⟩, hr, -⟩ := except_bind_ok h
  obtain ⟨⟨w', key'⟩, hr', -⟩ := except_bind_ok hr
  obtain ⟨m', hm', hr''⟩ := except_bind_ok hr'
  have hl := loadManifest_ok hm'
  cases hm.symm.trans hl
  simp only [VersionSelector.pick] at hr''
  split at hr''
  · cases hr''
  rename_i e' he'
  obtain ⟨hmem, hv⟩ := entry?_mem he'
  exact mem_map.mpr ⟨e', hmem, hv⟩

variable {graph : Bool} {data : Bytes}

lemma Recorded.keeps (h : Recorded host d e) (hg : Grows data graph d d') : Recorded host d' e := by
  obtain ⟨b, hb, hr⟩ := h
  exact ⟨b, hg.keeps hb, hr⟩

lemma WellFormed.save (h : WellFormed host d m) (hv : m'.versions = m.versions)
    (hl : m'.latest = m.latest) (hh : m'.head ∈ m.numbers) : WellFormed host (d.save m') m' where
  distinct := by simpa [numbers, hv] using h.distinct
  latest_mem := by simpa [numbers, hv, hl] using h.latest_mem
  latest_max := by simpa [numbers, hv, hl] using h.latest_max
  head_mem := by simpa [Manifest.numbers, hv] using hh
  recorded e he := h.recorded e (hv ▸ he)

lemma WellFormed.append (h : WellFormed host d m)
    (hg : Grows data graph d d') (hlt : m.latest < e.v) (he : Recorded host d' e) :
    WellFormed host d' (m.append e) where
  distinct := by
    simp only [Manifest.numbers, Manifest.append, map_append, map_cons, map_nil]
    refine Nodup.append h.distinct (nodup_singleton _) ?_
    intro v hv hv'
    have hle := h.latest_max v hv
    rw [mem_singleton] at hv'
    omega
  latest_mem := by simp [Manifest.numbers, Manifest.append]
  latest_max v hv := by
    simp only [Manifest.numbers, Manifest.append, map_append, mem_append] at hv ⊢
    rcases hv with hv | hv
    · exact (h.latest_max v hv).trans hlt.le
    · simp only [map_cons, map_nil, mem_singleton] at hv
      exact hv.le
  head_mem := by simp [Manifest.numbers, Manifest.append]
  recorded f hf := by
    rcases mem_append.mp hf with hf | hf
    · exact (h.recorded f hf).keeps hg
    · rw [mem_singleton.mp hf]
      exact he

lemma wellFormed_ingested (data : Bytes) (later : Time) :
    WellFormed host ((d.write (.version 1) data).save (initialManifest host data later))
      (initialManifest host data later) where
  distinct := by simp [numbers, initialManifest]
  latest_mem := by simp [numbers, initialManifest]
  latest_max := by simp [numbers, initialManifest]
  head_mem := by simp [numbers, initialManifest]
  recorded e he := by
    rw [initialManifest, mem_singleton] at he
    subst he
    exact ⟨data, by simp [save, write], rfl, rfl⟩

variable {c : Call} {r : Except StoreError Answer} {b : Bytes}

section

variable (heff : Effect host d c r d')
include heff

lemma Effect.inv (h : Inv host d) : Inv host d' := by
  intro m' hm'
  cases heff with
  | raised hm hg _ =>
    have hw := h m' (hm ▸ hm')
    exact { hw with recorded := fun e he => (hw.recorded e he).keeps hg }
  | ingested =>
    cases hm'
    exact wellFormed_ingested _ _
  | replayed | denied | notCleared => exact h m' hm'
  | published fields hop hm hr hp ha hbn hlt hrn he hm'' hg hb hl hs hn =>
    cases hm''.symm.trans hm'
    subst he
    exact (h _ hm).append hg hlt ⟨_, hb, hl, hs⟩
  | undone hop hm ha he hp hv =>
    cases hm'
    exact (h _ hm).save rfl rfl (verifySelectedBundle_mem hm hv)
  | redone hop hm ha hne ht hv =>
    cases hm'
    exact (h _ hm).save rfl rfl (verifySelectedBundle_mem hm hv)
  | granted hop hm =>
    cases hm'
    exact (h _ hm).save rfl rfl (h _ hm).head_mem
  | cleared hop hm =>
    cases hm'
    exact (h _ hm).save rfl rfl (h _ hm).head_mem

lemma Effect.grows : ∃ graph, Grows c.payload graph d d' := by
  have hs : ∀ m, ∃ graph, Grows c.payload graph d (d.save m) := fun m =>
    ⟨false, (sameBlobs_save d m).grows _ _⟩
  cases heff with
  | raised hm hg _ => exact ⟨_, hg⟩
  | ingested hop hm hv =>
    refine ⟨false, ?_⟩
    rw [payload_ingest hop]
    exact ((stored_write hv rfl).grows false).trans ((sameBlobs_save _ _).grows _ _)
  | published fields hop hm hr hp ha hb hlt hrn he hm'' hg =>
    exact ⟨_, payload_put hop ▸ hg⟩
  | undone | redone | granted | cleared => exact hs _
  | replayed | denied | notCleared => exact ⟨false, (SameBlobs.refl _).grows _ _⟩

lemma Effect.entries :
    (∀ e ∈ d.entries, e ∈ d'.entries) ∧
      ∀ e ∈ d'.entries, e ∈ d.entries ∨ r = .ok (.version e.v) ∧
        e.bytes = c.payload.length ∧ e.sha256 = host.sha256 c.payload := by
  have hs : d'.entries = d.entries → (∀ e ∈ d.entries, e ∈ d'.entries) ∧
      ∀ e ∈ d'.entries, e ∈ d.entries ∨ r = .ok (.version e.v) ∧
        e.bytes = c.payload.length ∧ e.sha256 = host.sha256 c.payload := by
    intro hd
    rw [hd]
    exact ⟨fun e he => he, fun e he => .inl he⟩
  cases heff with
  | raised hm hg _ => exact hs (by simp [entries, hm])
  | ingested hop hm hv =>
    refine ⟨fun e he => by simp [entries, hm] at he, fun e he => .inr ?_⟩
    rw [entries_some rfl, initialManifest, mem_singleton] at he
    rw [he, payload_ingest hop]
    exact ⟨rfl, rfl, rfl⟩
  | published fields hop hm hr hp ha hb hlt hrn he hm'' hg =>
    rw [entries_some hm, entries_some hm'', payload_put hop]
    refine ⟨fun e he => mem_append_left _ he, fun f hf => ?_⟩
    rcases mem_append.mp hf with hf | hf
    · exact .inl hf
    · rw [mem_singleton.mp hf, he]
      exact .inr ⟨rfl, rfl, rfl⟩
  | undone hop hm => exact hs (by simp [entries, hm, save])
  | redone hop hm => exact hs (by simp [entries, hm, save])
  | granted hop hm => exact hs (by simp [entries, hm, save])
  | cleared hop hm => exact hs (by simp [entries, hm, save])
  | replayed | denied | notCleared => exact hs rfl

end

def run (host : Host) (calls : List Call) : Drawing := after (step host) absent calls

lemma inv_run (host : Host) (calls : List Call) : Inv host (run host calls) :=
  invariant (fun m hm => by cases hm) (fun d c => (step_effect host d c).inv) calls

lemma after_keeps (host : Host) (d : Drawing) (calls : List Call) :
    (∀ e ∈ d.entries, e ∈ (after (step host) d calls).entries) ∧
      ∀ v b, d.objects (.version v) = some b → (after (step host) d calls).objects (.version v) = some b := by
  refine related (I := fun _ => True) (R := fun d d' : Drawing => (∀ e ∈ d.entries, e ∈ d'.entries) ∧
    ∀ v b, d.objects (.version v) = some b → d'.objects (.version v) = some b)
    (fun _ => ⟨fun _ he => he, fun _ _ hb => hb⟩) ?_ (fun _ _ _ => trivial) ?_ trivial calls
  · intro t u v h h'
    exact ⟨fun e he => h'.1 e (h.1 e he), fun w b hb => h'.2 w b (h.2 w b hb)⟩
  · intro t c _
    obtain ⟨graph, hg⟩ := (step_effect host t c).grows
    exact ⟨(step_effect host t c).entries.1, fun v b hb => hg.keeps hb⟩

lemma blob_is_payload (host : Host) (calls : List Call) (hb : (run host calls).objects (.version v) = some b) :
    ∃ c ∈ calls, c.payload = b := by
  refine invariant_along (C := fun _ c => c ∈ calls)
    (I := fun t => ∀ v b, t.objects (.version v) = some b → ∃ c ∈ calls, c.payload = b)
    (s := absent) (fun v b hb => by cases hb) ?_ calls (along_of_forall fun c hc _ => hc) v b hb
  intro t c ht hc v b hb
  obtain ⟨graph, hg⟩ := (step_effect host t c).grows
  rcases hg.versions v with he | ⟨_, hs⟩
  · exact ht v b (he ▸ hb)
  · rw [hs] at hb
    exact ⟨c, hc, Option.some.inj hb⟩

/-- The digest tells the payloads of a run apart, among those of one length. -/
def CollisionFree (host : Host) (calls : List Call) : Prop :=
  ∀ c ∈ calls, ∀ c' ∈ calls, c.payload.length = c'.payload.length →
    host.sha256 c.payload = host.sha256 c'.payload → c.payload = c'.payload

lemma run_append (host : Host) (pre suf : List Call) :
    run host (pre ++ suf) = after (step host) (run host pre) suf :=
  after_append _ _ _

theorem legacy_history (host : Host) (calls : List Call) :
    (∀ m, (run host calls).manifest = some m → WellFormed host (run host calls) m) ∧
    (∀ e ∈ (run host calls).entries, ∃ pre c suf, calls = pre ++ c :: suf ∧
      e ∉ (run host pre).entries ∧ e ∈ (run host (pre ++ [c])).entries ∧
      (step host (run host pre) c).1 = .ok (.version e.v) ∧
      e.bytes = c.payload.length ∧ e.sha256 = host.sha256 c.payload ∧
      (CollisionFree host calls → (run host calls).objects (.version e.v) = some c.payload)) ∧
    (∀ pre suf, calls = pre ++ suf → ∀ e ∈ (run host pre).entries, e ∈ (run host calls).entries ∧
      (run host calls).objects (.version e.v) = (run host pre).objects (.version e.v)) ∧
    ∀ pre c suf, calls = pre ++ c :: suf → ∀ r, (step host (run host pre) c).1 = .error r →
      (run host (pre ++ [c])).manifest = (run host pre).manifest := by
  have hrec : ∀ calls, ∀ e ∈ (run host calls).entries, Recorded host (run host calls) e := by
    intro calls e he
    cases hm : (run host calls).manifest with
    | none => simp [entries, hm] at he
    | some m => exact (inv_run host calls m hm).recorded e (entries_some hm ▸ he)
  refine ⟨inv_run host calls, ?_, ?_, ?_⟩
  · intro e he
    obtain ⟨pre, c, suf, hc, hn, hin⟩ := exists_acquired (s := absent)
      (P := fun d : Drawing => e ∈ d.entries) (by simp [entries, absent]) he
    obtain ⟨b, hb, hl, hs⟩ := hrec calls e he
    obtain ⟨c', hc', rfl⟩ := blob_is_payload host calls hb
    rcases (step_effect host (run host pre) c).entries.2 e hin with hold | ⟨ha, hby, hd⟩
    · exact absurd hold hn
    refine ⟨pre, c, suf, hc, hn, ?_, ha, hby, hd, fun hcf => ?_⟩
    · rw [run_append]
      exact hin
    rw [hb]
    have hmem : c ∈ calls := by simp [hc]
    rw [hcf c' hc' c hmem (hl.trans hby) (hs.trans hd)]
  · rintro pre suf rfl e he
    obtain ⟨hen, hbl⟩ := after_keeps host (run host pre) suf
    obtain ⟨b, hb, -⟩ := hrec pre e he
    rw [run_append, hb]
    exact ⟨hen e he, hbl _ _ hb⟩
  · intro pre c suf _ r hr
    have heff := step_effect host (run host pre) c
    rw [hr] at heff
    rw [run_append]
    cases heff with
    | raised hm => exact hm

-- SHA-256 on the payloads of the runs below
def sampleDigest : Bytes → String
  | [1] => "4bf5122f344554c53bde2ebb8cd2b7e3d1600ad631c385a5d7cce23c7785459a"
  | [2] => "dbc1b4c900ffe48d575b5da5c638040125f65db0fe3e24494b76ea986457d986"
  | [3] => "084fed08b978af4d7d196a7446a86b58009e636b611db16211b65a9aadff29c5"
  | _ => "e3b0c44298fc1c149afbf4c8996fb92427ae41e4649b934ca495991b7852b855"

def sampleHost : Host where
  tid := "t1"
  did := "d1"
  sha256 := sampleDigest
  crossProcessCheckoutSafe := true
  bundleConforms _ _ _ := false

def adoptingCalls : List Call :=
  [{ op := .ingest [1] none, now := 0, later := 0 },
   { op := .put { data := [2], parentVersion := .int 1 }, now := 1, later := 1,
     faults := [false, true] },
   { op := .put { data := [2], parentVersion := .int 1 }, now := 2, later := 2 },
   { op := .undo none none, now := 3, later := 3 }]

theorem legacy_history_adopting :
    (run sampleHost adoptingCalls).entries.map (·.v) = [1, 2] ∧
    ∀ e ∈ (run sampleHost adoptingCalls).entries, ∃ c ∈ adoptingCalls,
      (run sampleHost adoptingCalls).objects (.version e.v) = some c.payload := by
  refine ⟨by decide, fun e he => ?_⟩
  have hcf : CollisionFree sampleHost adoptingCalls := by
    unfold CollisionFree
    decide
  obtain ⟨pre, c, suf, hc, -, -, -, -, -, hb⟩ := (legacy_history sampleHost adoptingCalls).2.1 e he
  exact ⟨c, by simp [hc], hb hcf⟩

end LeafWeb.Store.Legacy
