import LeafWeb.Store.Legacy.History

/-! Who may act under a checkout. The lease is read off the history of calls, not off the manifest. -/

namespace LeafWeb.Store.Legacy

open Lib.Procedure Lib.Transition List Option Drawing

abbrev History := List (Call × Except StoreError Answer)

structure Lease where
  generation : ℤ
  expires : Time
  deriving DecidableEq

def leaseAfter (l : Option Lease) (x : Call × Except StoreError Answer) : Option Lease :=
  match x.2 with
  | .ok (.generation (some g)) =>
    match x.1.op with
    | .acquire _ (some ttl) _ _ => some ⟨g, x.1.now + ttl⟩
    | _ => l
  | .ok (.cleared true) => none
  | _ => l

def lease (h : History) : Option Lease := h.foldl leaseAfter none

def generationOf (r : Except StoreError Answer) : Option ℤ :=
  match r with
  | .ok (.generation g) => g
  | _ => none

def generations (h : History) : List ℤ := h.filterMap fun x => generationOf x.2

def succeeds : Except StoreError Answer → Bool
  | .ok (.version _) => true
  | .ok (.generation g) => g.isSome
  | .ok (.cleared b) => b
  | .error _ => false

def Op.presents : Op → Option (Option ℤ)
  | .acquire _ _ fence true => some fence
  | .release _ (some fence) => some (some fence)
  | .put a => a.fence.map some
  | .undo _ (some fence) => some (some fence)
  | .redo _ (some fence) => some (some fence)
  | _ => none

@[simp] lemma lease_concat (h : History) (x : Call × Except StoreError Answer) :
    lease (h ++ [x]) = leaseAfter (lease h) x := by
  simp [lease]

@[simp] lemma generations_concat (h : History) (x : Call × Except StoreError Answer) :
    generations (h ++ [x]) = generations h ++ (generationOf x.2).toList := by
  cases hx : generationOf x.2 <;> simp [generations, hx]

variable {host : Host} {h : History} {d d' : Drawing} {m m' : Manifest}

structure Tracks (h : History) (m : Manifest) : Prop where
  checkout : m.checkout.map (fun co => (co.fence, co.expires)) =
    (lease h).map (fun l => (some l.generation, l.expires))
  bounded : ∀ g ∈ generations h, ∃ top, m.checkoutFence = some top ∧ g ≤ top

structure Fenced (h : History) (d : Drawing) : Prop where
  increasing : (generations h).Pairwise (· < ·)
  absent : d.manifest = none → lease h = none ∧ generations h = []
  tracks : ∀ m, d.manifest = some m → Tracks h m

variable {g : ℤ}

lemma Tracks.lt_nextFence (ht : Tracks h m) (hg : g ∈ generations h) : g < nextFence m := by
  obtain ⟨top, htop, hle⟩ := ht.bounded g hg
  have hn : nextFence m = top + 1 := by simp [nextFence, htop]
  omega

variable {l : Lease} {x : Call × Except StoreError Answer}

lemma Tracks.live (ht : Tracks h m) (hl : lease h = some l) :
    ∃ co, m.checkout = some co ∧ co.fence = some l.generation ∧ co.expires = l.expires := by
  have hc := ht.checkout
  rw [hl] at hc
  obtain ⟨co, hco, heq⟩ := map_eq_some_iff.mp hc
  exact ⟨co, hco, (Prod.ext_iff.mp heq).1, (Prod.ext_iff.mp heq).2⟩

lemma Fenced.quiet (hf : Fenced h d) (hl : leaseAfter (lease h) x = lease h) (hg : generationOf x.2 = none)
    (hm : d'.manifest = d.manifest) : Fenced (h ++ [x]) d' where
  increasing := by simpa [hg] using hf.increasing
  absent hn := by simpa [hg, hl] using hf.absent (hm ▸ hn)
  tracks m' hm' := by
    have ht := hf.tracks m' (hm ▸ hm')
    exact ⟨by simpa [hl] using ht.checkout, by simpa [hg] using ht.bounded⟩

lemma Fenced.save (hf : Fenced h d) (hl : leaseAfter (lease h) x = lease h) (hg : generationOf x.2 = none)
    (hm : d.manifest = some m) (hm' : d'.manifest = some m') (hc : m'.checkout = m.checkout)
    (hcf : m'.checkoutFence = m.checkoutFence) : Fenced (h ++ [x]) d' where
  increasing := by simpa [hg] using hf.increasing
  absent hn := by
    cases hm'.symm.trans hn
  tracks m'' hm'' := by
    have ht := hf.tracks m hm
    rw [hm'] at hm''
    cases hm''
    exact ⟨by simpa [hl, hc] using ht.checkout, by simpa [hg, hcf] using ht.bounded⟩

variable {now expires : Time}

lemma addTtl_ok {ttl : Option ℤ} (he : addTtl now ttl = .ok expires) : ∃ t, ttl = some t ∧
    expires = now + t := by
  cases ttl with
  | none => cases he
  | some t =>
    simp only [addTtl] at he
    split_ifs at he
    cases he
    exact ⟨t, rfl, rfl⟩

variable {holder : Option String} {f : ℤ}

section

variable {c : Call} {r : Except StoreError Answer}

lemma Effect.fenced (heff : Effect host d c r d') (hf : Fenced h d) : Fenced (h ++ [(c, r)]) d' := by
  cases heff with
  | raised hm => exact hf.quiet rfl rfl hm
  | ingested hop hm =>
    obtain ⟨hl, hg⟩ := hf.absent hm
    refine ⟨by simp [hg], (fun hn => by cases hn), ?_⟩
    rintro _ ⟨⟩
    exact ⟨by simp [hl, leaseAfter, initialManifest], by simp [hg, generationOf]⟩
  | replayed | denied | notCleared => exact hf.quiet rfl rfl rfl
  | published fields hop hm hr hp ha hb hlt hrn he hm' =>
    exact hf.save rfl rfl hm hm' rfl rfl
  | undone hop hm => exact hf.save rfl rfl hm rfl rfl rfl
  | redone hop hm => exact hf.save rfl rfl hm rfl rfl rfl
  | granted hop hm hg he =>
    have ht := hf.tracks _ hm
    obtain ⟨t, rfl, rfl⟩ := addTtl_ok he
    refine ⟨?_, (fun hn => by cases hn), ?_⟩
    · simp only [generations_concat, generationOf, toList_some, pairwise_append,
        pairwise_singleton, mem_singleton, true_and]
      refine ⟨hf.increasing, ?_⟩
      rintro g hg _ rfl
      exact ht.lt_nextFence hg
    · rintro _ ⟨⟩
      refine ⟨by simp [leaseAfter, hop], fun g hg => ⟨_, rfl, ?_⟩⟩
      simp only [generations_concat, generationOf, toList_some, mem_append, mem_singleton] at hg
      rcases hg with hg | rfl
      · exact (ht.lt_nextFence hg).le
      · exact le_refl _
  | cleared hop hm =>
    have ht := hf.tracks _ hm
    refine ⟨by simpa [generationOf] using hf.increasing, (fun hn => by cases hn), ?_⟩
    rintro _ ⟨⟩
    exact ⟨by simp [leaseAfter], by simpa [generationOf] using ht.bounded⟩

section

variable {co : Checkout} (hfence : co.fence = some g) (hlive : now < co.expires)

include hfence hlive

lemma authorize_live_fence {action : String}
    (h : authorizeCheckoutView (some co) holder (some f) now action = .ok ()) : f = g := by
  simp only [authorizeCheckoutView, isActive, decide_eq_true hlive, reduceCtorEq, and_false, hfence] at h
  obtain ⟨_, _, hf⟩ := except_bind_ok h
  exact refuseStaleFence_ok hf

lemma grantable_live_fence {fence : Option ℤ} {holder : String} (hco : m.checkout = some co)
    (h : grantable m holder fence true now = true) : fence = some g := by
  simp only [grantable, hco, isActive, decide_eq_true hlive, hfence, getD_some] at h
  cases fence with
  | none => cases h
  | some f => rw [of_decide_eq_true h]

lemma releasable_live_fence (h : releasable co holder (some f) now = true) : f = g := by
  simp only [releasable, isActive, decide_eq_true hlive, hfence] at h
  exact (of_decide_eq_true h).symm

end

lemma Effect.presents_live (he : Effect host d c r d') (hf : Fenced h d)
    (hl : lease h = some l) (hlive : c.now < l.expires) {f : Option ℤ}
    (hp : c.op.presents = some f) (hs : succeeds r = true) : f = some l.generation := by
  cases hm : d.manifest with
  | none =>
    rw [(hf.absent hm).1] at hl
    cases hl
  | some m =>
  obtain ⟨co, hco, hfence, hexp⟩ := (hf.tracks m hm).live hl
  rw [← hexp] at hlive
  have hat : ∀ m' holder fence action, d.manifest = some m' → fence.map some = some f →
      authorizeCheckoutView m'.checkout holder fence c.now action = .ok () →
      f = some l.generation := by
    intro m' holder fence action hm' hfe ha
    rw [hm] at hm'
    cases hm'
    obtain ⟨f', rfl, rfl⟩ := map_eq_some_iff.mp hfe
    rw [hco] at ha
    rw [authorize_live_fence hfence hlive ha]
  cases he with
  | raised => cases hs
  | ingested hop =>
    rw [hop] at hp
    cases hp
  | replayed hop hm' hr hb ha =>
    rw [hop] at hp
    exact hat _ _ _ _ hm' hp ha
  | published fields hop hm' hr hpar ha =>
    rw [hop] at hp
    exact hat _ _ _ _ hm' hp ha
  | @undone holder fence m' e p hop hm' ha =>
    rw [hop] at hp
    refine hat _ holder fence _ hm' ?_ ha
    cases fence with
    | none => cases hp
    | some f' => exact hp
  | @redone holder fence m' t hop hm' ha =>
    rw [hop] at hp
    refine hat _ holder fence _ hm' ?_ ha
    cases fence with
    | none => cases hp
    | some f' => exact hp
  | @granted holder ttl fence strict m' expires hop hm' hg =>
    rw [hop] at hp
    rw [hm] at hm'
    cases hm'
    cases strict with
    | false => cases hp
    | true =>
      cases hp
      exact grantable_live_fence hfence hlive hco hg
  | denied => cases hs
  | @cleared holder fence m' co' hop hm' hco' hr =>
    rw [hop] at hp
    rw [hm] at hm'
    cases hm'
    rw [hco] at hco'
    cases hco'
    cases fence with
    | none => cases hp
    | some f' =>
      cases hp
      rw [releasable_live_fence hfence hlive hr]
  | notCleared => cases hs

end

lemma fenced_run (host : Host) (calls : List Call) : Fenced (trace (step host) absent calls) (run host calls) :=
  history ⟨Pairwise.nil, fun _ => ⟨rfl, rfl⟩, fun m hm => by cases hm⟩
    (fun _ d c => (step_effect host d c).fenced) calls

theorem legacy_fencing (host : Host) (calls : List Call) :
    (generations (trace (step host) absent calls)).Pairwise (· < ·) ∧
    ∀ pre c suf, calls = pre ++ c :: suf →
      ∀ l, lease (trace (step host) absent pre) = some l → c.now < l.expires →
      ∀ f, c.op.presents = some f → succeeds (step host (run host pre) c).1 = true →
      f = some l.generation :=
  ⟨(fenced_run host calls).increasing, fun pre _ _ _ _ hl hlive _ hp hs =>
    (step_effect host _ _).presents_live (fenced_run host pre) hl hlive hp hs⟩

def reacquiringCalls : List Call :=
  [{ op := .ingest [1] none, now := 0, later := 0 },
   { op := .acquire "session-a" (some 100) none true, now := 1, later := 1 },
   { op := .release none (some 1), now := 2, later := 2 },
   { op := .acquire "session-b" (some 100) none true, now := 3, later := 3 }]

def fencedPut : Call where
  op := .put { data := [2], parentVersion := .int 1, holder := some "session-b", fence := some 2 }
  now := 4
  later := 4

theorem legacy_fencing_reacquired :
    generations (trace (step sampleHost) absent reacquiringCalls) = [1, 2] ∧
    [(1 : ℤ), 2].Pairwise (· < ·) ∧
    lease (trace (step sampleHost) absent reacquiringCalls) = some ⟨2, 103⟩ ∧
    succeeds (step sampleHost (run sampleHost reacquiringCalls) fencedPut).1 = true ∧
    some (2 : ℤ) = some (Lease.mk 2 103).generation := by
  have hg : generations (trace (step sampleHost) absent reacquiringCalls) = [1, 2] := by decide
  have hl : lease (trace (step sampleHost) absent reacquiringCalls) = some ⟨2, 103⟩ := by decide
  have hs : succeeds (step sampleHost (run sampleHost reacquiringCalls) fencedPut).1 = true := by decide
  refine ⟨hg, hg ▸ (legacy_fencing sampleHost reacquiringCalls).1, hl, hs, ?_⟩
  exact (legacy_fencing sampleHost (reacquiringCalls ++ [fencedPut])).2 reacquiringCalls fencedPut [] rfl
    ⟨2, 103⟩ hl (by decide) (some 2) rfl hs

end LeafWeb.Store.Legacy
