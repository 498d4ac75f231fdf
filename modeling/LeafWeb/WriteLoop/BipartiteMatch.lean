import LeafWeb.Lib.BipartiteMatching
import LeafWeb.Mutation.Validate

/-! `_max_bipartite_match` of the write loop: augmenting paths by an explicit stack of frames. -/

namespace LeafWeb.WriteLoop

open Lib List Prod Dict

variable {R : Type} [DecidableEq R] {m : Dict R ℕ} {visited : List R} {r : R}

structure Frame (R : Type) where
  node : ℕ
  it : List R
  inEdge : Option R

def reassign (matchRight : Dict R ℕ) : List (Frame R) → Dict R ℕ
  | f :: g :: below => reassign (f.inEdge.elim matchRight fun e => matchRight.set e g.node) (g :: below)
  | _ => matchRight

def unvisited (matchRight : Dict R ℕ) (visited : List R) : List R :=
  (matchRight.rows.map fst).filter fun r => r ∉ visited

lemma unvisited_cons_lt (hr : r ∉ visited) (h : (m.get r).isSome) :
    (unvisited m (r :: visited)).length < (unvisited m visited).length := by
  have hs : unvisited m (r :: visited) = (unvisited m visited).filter fun x => x ≠ r := by
    rw [unvisited, unvisited, filter_filter]
    apply filter_congr
    intro x _
    simp [not_or]
  obtain ⟨l, hl⟩ := Option.isSome_iff_exists.mp h
  have hk : r ∈ m.rows.map fst := mem_map.mpr ⟨_, get_some.mp hl, rfl⟩
  rw [hs, length_filter_lt_length_iff_exists]
  exact ⟨r, mem_filter.mpr ⟨hk, by simpa using hr⟩, by simp⟩

/-- The `while frames` loop; without an augmenting path the dictionary stays as it is. -/
def augment (adj : ℕ → List R) (matchRight : Dict R ℕ) (visited : List R) (frames : List (Frame R)) : Dict R ℕ :=
  match frames with
  | [] => matchRight
  | ⟨_, [], _⟩ :: below => augment adj matchRight visited below
  | ⟨node, candidate :: it, e⟩ :: below =>
    if _hseen : candidate ∈ visited then augment adj matchRight visited (⟨node, it, e⟩ :: below)
    else if hmatched : (matchRight.get candidate).isSome then
      augment adj matchRight (candidate :: visited)
        (⟨(matchRight.get candidate).get hmatched, adj ((matchRight.get candidate).get hmatched),
          some candidate⟩ :: ⟨node, it, e⟩ :: below)
    else reassign (matchRight.set candidate node) (⟨node, it, e⟩ :: below)
  termination_by ((unvisited matchRight visited).length, (frames.map fun f => f.it.length + 1).sum)
  decreasing_by
    · exact Prod.Lex.right _ (by simp)
    · exact Prod.Lex.right _ (by simp)
    · exact Prod.Lex.left _ _ (unvisited_cons_lt _hseen hmatched)

def matchAll (adj : ℕ → List R) (leftCount : ℕ) : Dict R ℕ :=
  (range leftCount).foldl (fun matchRight start =>
    augment adj matchRight [] [⟨start, adj start, none⟩]) Table.empty

def assign (leftCount : ℕ) (matchRight : Dict R ℕ) : List (Option R) :=
  matchRight.rows.foldl (fun assignment p => assignment.set p.2 (some p.1)) (replicate leftCount none)

def maxBipartiteMatch (adjacency : List (List ℤ)) (rightCount : ℕ) : Except String (List (Option ℤ)) := do
  let leftCount := adjacency.length
  refuse (Mutation.maxOperations < leftCount ∨ Mutation.maxOperations < rightCount)
    "added INSERT matching exceeds the supported operation bound"
  return assign leftCount (matchAll (fun i => (adjacency[i]?).getD []) leftCount)

variable {adj : ℕ → List R} {start node l k : ℕ} {below frames : List (Frame R)} {f : Frame R} {c : R}

section

def Edges (adj : ℕ → List R) (l : ℕ) (r : R) : Prop := r ∈ adj l

def Pairs (matchRight : Dict R ℕ) (l : ℕ) (r : R) : Prop := matchRight.get r = some l

structure Path (adj : ℕ → List R) (matchRight : Dict R ℕ) (start : ℕ) (frames : List (Frame R)) : Prop where
  owned : ∀ f ∈ frames, ∀ r, matchRight.get r = some f.node ↔ f.inEdge = some r
  links : frames.IsChain fun f g => ∃ e, f.inEdge = some e ∧ e ∈ adj g.node
  distinct : (frames.map Frame.inEdge).Nodup
  bottom : ∀ f ∈ frames.getLast?, f.node = start ∧ f.inEdge = none

def Finished (adj : ℕ → List R) (visited : List R) (frames : List (Frame R)) (l : ℕ) : Prop :=
  (∃ f ∈ frames, f.node = l) ∨ ∀ r ∈ adj l, r ∈ visited

structure Stacked (adj : ℕ → List R) (matchRight : Dict R ℕ) (start : ℕ) (visited : List R)
    (frames : List (Frame R)) : Prop extends Path adj matchRight start frames where
  seen : ∀ f ∈ frames, ∀ r, f.inEdge = some r → r ∈ visited
  listed : ∀ f ∈ frames, ∀ r ∈ f.it, r ∈ adj f.node
  ahead : ∀ f ∈ frames, ∀ r ∈ adj f.node, r ∈ visited ∨ r ∈ f.it

structure Searching (adj : ℕ → List R) (matchRight : Dict R ℕ) (start : ℕ) (visited : List R)
    (frames : List (Frame R)) : Prop extends Stacked adj matchRight start visited frames where
  closed : ∀ v ∈ visited, ∃ l, matchRight.get v = some l ∧ Finished adj visited frames l
  started : Finished adj visited frames start

inductive Outcome (adj : ℕ → List R) (matchRight : Dict R ℕ) (start : ℕ) : Dict R ℕ → Prop
  | failed (visited : List R)
    (closed : ∀ v ∈ visited, ∃ l, matchRight.get v = some l ∧ ∀ r ∈ adj l, r ∈ visited)
    (started : ∀ r ∈ adj start, r ∈ visited) : Outcome adj matchRight start matchRight
  | found (c : R) (f : Frame R) (below : List (Frame R)) (path : Path adj matchRight start (f :: below))
    (hc : c ∈ adj f.node) (free : matchRight.get c = none) :
    Outcome adj matchRight start (reassign (matchRight.set c f.node) (f :: below))

lemma Searching.pop (h : Searching adj m start visited (f :: below)) (hit : f.it = []) :
    Searching adj m start visited below := by
  have hd : ∀ r ∈ adj f.node, r ∈ visited := by
    intro r hr
    simpa [hit] using h.ahead f mem_cons_self r hr
  have hf : ∀ l, Finished adj visited (f :: below) l → Finished adj visited below l := by
    rintro l (⟨g, hg, rfl⟩ | hl)
    · rcases mem_cons.mp hg with rfl | hg
      · exact .inr hd
      · exact .inl ⟨g, hg, rfl⟩
    · exact .inr hl
  exact
    { owned := fun g hg => h.owned g (mem_cons_of_mem _ hg)
      links := h.links.tail
      distinct := (nodup_cons.mp h.distinct).2
      bottom := fun g hg => h.bottom g (by
        cases below with
        | nil => cases hg
        | cons b below => exact hg)
      seen := fun g hg => h.seen g (mem_cons_of_mem _ hg)
      listed := fun g hg => h.listed g (mem_cons_of_mem _ hg)
      ahead := fun g hg => h.ahead g (mem_cons_of_mem _ hg)
      closed := fun v hv => (h.closed v hv).imp fun l hl => ⟨hl.1, hf l hl.2⟩
      started := hf start h.started }

variable {it visited' : List R} {e : Option R}

lemma Path.advance (h : Path adj m start (⟨node, c :: it, e⟩ :: below)) :
    Path adj m start (⟨node, it, e⟩ :: below) where
  owned := forall_mem_cons.mpr (forall_mem_cons.mp h.owned)
  links := by
    cases below with
    | nil => exact isChain_singleton _
    | cons b below => exact isChain_cons_cons.mpr (isChain_cons_cons.mp h.links)
  distinct := h.distinct
  bottom g hg := by
    cases below with
    | nil =>
      obtain rfl := Option.mem_some.mp hg
      exact h.bottom ⟨node, c :: it, e⟩ rfl
    | cons b below => exact h.bottom g hg

lemma Stacked.advance (hsub : visited ⊆ visited') (hc : c ∈ visited')
    (h : Stacked adj m start visited (⟨node, c :: it, e⟩ :: below)) :
    Stacked adj m start visited' (⟨node, it, e⟩ :: below) := by
  obtain ⟨hsn, hs⟩ := forall_mem_cons.mp h.seen
  obtain ⟨hls, hl⟩ := forall_mem_cons.mp h.listed
  obtain ⟨hah, ha⟩ := forall_mem_cons.mp h.ahead
  refine
    { toPath := h.toPath.advance
      seen := forall_mem_cons.mpr ⟨fun r hr => hsub (hsn r hr), fun g hg r hr => hsub (hs g hg r hr)⟩
      listed := forall_mem_cons.mpr ⟨fun r hr => hls r (mem_cons_of_mem _ hr), hl⟩
      ahead := forall_mem_cons.mpr ⟨fun r hr => ?_, fun g hg r hr => ?_⟩ }
  · rcases hah r hr with hr | hr
    · exact .inl (hsub hr)
    · rcases mem_cons.mp hr with rfl | hr
      · exact .inl hc
      · exact .inr hr
  · exact (ha g hg r hr).imp (fun hr => hsub hr) id

omit [DecidableEq R] in
lemma Finished.advance (hs : visited ⊆ visited') (h : Finished adj visited (⟨node, c :: it, e⟩ :: below) l) :
    Finished adj visited' (⟨node, it, e⟩ :: below) l := by
  rcases h with ⟨g, hg, rfl⟩ | hl
  · rcases mem_cons.mp hg with rfl | hg
    · exact .inl ⟨_, mem_cons_self, rfl⟩
    · exact .inl ⟨g, mem_cons_of_mem _ hg, rfl⟩
  · exact .inr fun r hr => hs (hl r hr)

section

variable (h : Searching adj m start visited (⟨node, c :: it, e⟩ :: below))
include h

lemma Searching.skip (hc : c ∈ visited) : Searching adj m start visited (⟨node, it, e⟩ :: below) where
  toStacked := h.toStacked.advance (Subset.refl _) hc
  closed v hv := (h.closed v hv).imp fun _ hl => ⟨hl.1, hl.2.advance (Subset.refl _)⟩
  started := h.started.advance (Subset.refl _)

lemma Searching.push {owner : ℕ} (hm : IsMatching (Edges adj) (Pairs m)) (hc : c ∉ visited)
    (ho : m.get c = some owner) :
    Searching adj m start (c :: visited) (⟨owner, adj owner, some c⟩ :: ⟨node, it, e⟩ :: below) := by
  have hs := h.toStacked.advance (subset_cons_self c visited) mem_cons_self
  have hf : ∀ l, Finished adj visited (⟨node, c :: it, e⟩ :: below) l →
      Finished adj (c :: visited) (⟨owner, adj owner, some c⟩ :: ⟨node, it, e⟩ :: below) l := by
    intro l hl
    exact (hl.advance (subset_cons_self _ _)).imp (fun ⟨g, hg, heq⟩ => ⟨g, mem_cons_of_mem _ hg, heq⟩) id
  refine
    { owned := forall_mem_cons.mpr ⟨fun r => ?_, hs.owned⟩
      links := isChain_cons_cons.mpr ⟨⟨c, rfl, ?_⟩, hs.links⟩
      distinct := nodup_cons.mpr ⟨fun hmem => ?_, hs.distinct⟩
      bottom := hs.bottom
      seen := forall_mem_cons.mpr ⟨fun r hr => ?_, hs.seen⟩
      listed := forall_mem_cons.mpr ⟨fun _ => id, hs.listed⟩
      ahead := forall_mem_cons.mpr ⟨fun _ => .inr, hs.ahead⟩
      closed := fun v hv => ?_
      started := hf start h.started }
  · constructor
    · exact fun hr => congrArg some (hm.left owner c r ho hr)
    · rintro ⟨⟩
      exact ho
  · exact h.listed _ mem_cons_self c mem_cons_self
  · obtain ⟨g, hg, he⟩ : ∃ g ∈ (⟨node, c :: it, e⟩ :: below : List (Frame R)), g.inEdge = some c := mem_map.mp hmem
    exact hc (h.seen g hg c he)
  · obtain rfl := Option.some.inj hr
    exact mem_cons_self
  · rcases mem_cons.mp hv with rfl | hv
    · exact ⟨owner, ho, .inl ⟨_, mem_cons_self, rfl⟩⟩
    · exact (h.closed v hv).imp fun l hl => ⟨hl.1, hf l hl.2⟩

end

lemma augment_outcome (hm : IsMatching (Edges adj) (Pairs m)) (h : Searching adj m start visited frames) :
    Outcome adj m start (augment adj m visited frames) := by
  fun_induction augment adj m visited frames with
  | case1 visited =>
    refine .failed visited (fun v hv => ?_) ?_
    · obtain ⟨l, hl, hd⟩ := h.closed v hv
      exact ⟨l, hl, hd.resolve_left (by simp)⟩
    · exact h.started.resolve_left (by simp)
  | case2 visited node e below ih => exact ih (h.pop rfl)
  | case3 visited node c it e below hs ih => exact ih (h.skip hs)
  | case4 visited node c it e below hs hmt ih =>
    exact ih (h.push hm hs (Option.some_get hmt).symm)
  | case5 visited node c it e below hs hf =>
    exact .found c ⟨node, it, e⟩ below h.toPath.advance
      (h.listed _ mem_cons_self c mem_cons_self) (Option.not_isSome_iff_eq_none.mp hf)

end

variable {g : Frame R} {e : R}

lemma get_reassign (h : ∀ f ∈ frames, f.inEdge ≠ some r) : (reassign m frames).get r = m.get r := by
  fun_induction reassign m frames with
  | case1 m f g below ih =>
    rw [ih fun x hx => h x (mem_cons_of_mem _ hx)]
    have he := h f mem_cons_self
    cases hf : f.inEdge with
    | none => rfl
    | some e =>
      rw [Option.elim_some, get_set, if_neg]
      rintro rfl
      exact he hf
  | case2 => rfl

lemma get_set_some (m : Dict R ℕ) :
    (m.set e node).get r = some l ↔ r = e ∧ node = l ∨ r ≠ e ∧ m.get r = some l := by
  rw [get_set]
  split_ifs with h <;> simp [h]

structure Shifted (adj : ℕ → List R) (matchRight : Dict R ℕ) (f : Frame R) (below : List (Frame R)) : Prop where
  edge : ∀ r l, f.inEdge ≠ some r → matchRight.get r = some l → r ∈ adj l
  unique : ∀ r r' l, f.inEdge ≠ some r → f.inEdge ≠ some r' → matchRight.get r = some l →
    matchRight.get r' = some l → r = r'
  owned : ∀ g ∈ below, ∀ r, f.inEdge ≠ some r → (matchRight.get r = some g.node ↔ g.inEdge = some r)
  links : (f :: below).IsChain fun f g => ∃ e, f.inEdge = some e ∧ e ∈ adj g.node
  distinct : ((f :: below).map Frame.inEdge).Nodup
  bottom : ∀ g ∈ (f :: below).getLast?, g.inEdge = none

lemma Shifted.node_ne {h : Frame R} (hs : Shifted adj m f below) (hg : g ∈ below)
    (hh : h ∈ below) (hne : g.inEdge ≠ h.inEdge) : g.node ≠ h.node := by
  intro hn
  have hnot : ∀ x ∈ below, f.inEdge ≠ x.inEdge := by
    intro x hx heq
    exact (nodup_cons.mp hs.distinct).1 (heq ▸ mem_map_of_mem hx)
  apply hne
  ext r
  by_cases hr : f.inEdge = some r
  · simp [← hr, (hnot g hg).symm, (hnot h hh).symm]
  · rw [← hs.owned g hg r hr, ← hs.owned h hh r hr, hn]

lemma Shifted.step (h : Shifted adj m f (g :: below)) (hf : f.inEdge = some e) :
    Shifted adj (m.set e g.node) g below := by
  obtain ⟨hln, hl⟩ := isChain_cons_cons.mp h.links
  obtain ⟨hn, hd⟩ := nodup_cons.mp h.distinct
  obtain ⟨hg, hb⟩ := forall_mem_cons.mp h.owned
  have he : e ∈ adj g.node := by
    obtain ⟨e', he', ha⟩ := hln
    rw [hf] at he'
    exact Option.some.inj he' ▸ ha
  have ho : ∀ r, r ≠ e → f.inEdge ≠ some r := by
    intro r hr heq
    exact hr (Option.mem_unique heq hf)
  refine ⟨?_, ?_, ?_, hl, hd, h.bottom⟩
  · intro r l _ hr
    rcases (get_set_some m).mp hr with ⟨rfl, rfl⟩ | ⟨hne, hr⟩
    · exact he
    · exact h.edge r l (ho r hne) hr
  · intro r r' l hout hout' hr hr'
    rcases (get_set_some m).mp hr with ⟨rfl, rfl⟩ | ⟨hne, hold⟩
    · rcases (get_set_some m).mp hr' with ⟨rfl, -⟩ | ⟨hne', hold'⟩
      · rfl
      · exact absurd ((hg r' (ho r' hne')).mp hold') hout'
    · rcases (get_set_some m).mp hr' with ⟨rfl, rfl⟩ | ⟨hne', hold'⟩
      · exact absurd ((hg r (ho r hne)).mp hold) hout
      · exact h.unique r r' l (ho r hne) (ho r' hne') hold hold'
  · intro x hx r hout
    by_cases hr : r = e
    · subst hr
      have hxe : x.inEdge ≠ some r := by
        intro heq
        exact hn (by rw [hf, ← heq]; exact mem_map_of_mem (mem_cons_of_mem _ hx))
      have hne : g.node ≠ x.node := by
        apply h.node_ne mem_cons_self (mem_cons_of_mem _ hx)
        intro heq
        exact (nodup_cons.mp hd).1 (heq ▸ mem_map_of_mem hx)
      simp [get_set, hne, hxe]
    · rw [get_set, if_neg hr]
      exact hb x hx r (ho r hr)

lemma Shifted.reassign (h : Shifted adj m f below) :
    IsMatching (Edges adj) (Pairs (reassign m (f :: below))) ∧
      ∀ l, (∃ r, (WriteLoop.reassign m (f :: below)).get r = some l) ↔
        (∃ r, f.inEdge ≠ some r ∧ m.get r = some l) ∨ ∃ g ∈ below, g.node = l := by
  induction below generalizing m f with
  | nil =>
    have hfr : ∀ r, f.inEdge ≠ some r := by
      simp [h.bottom f rfl]
    refine ⟨⟨fun l r => h.edge r l (hfr r), fun l r r' => h.unique r r' l (hfr r) (hfr r'), ?_⟩, ?_⟩
    · intro l l' r hl hl'
      exact Option.mem_unique hl hl'
    · simp [WriteLoop.reassign, hfr]
  | cons g below ih =>
    obtain ⟨e, hf, -⟩ := (isChain_cons_cons.mp h.links).1
    have hs : WriteLoop.reassign m (f :: g :: below) = WriteLoop.reassign (m.set e g.node) (g :: below) := by
      rw [WriteLoop.reassign, hf, Option.elim_some]
    obtain ⟨hm, hc⟩ := ih (h.step hf)
    rw [hs]
    refine ⟨hm, fun l => ?_⟩
    rw [hc, exists_mem_cons_iff, ← or_assoc]
    refine or_congr_left ⟨?_, ?_⟩
    · rintro ⟨r, -, hr⟩
      rcases (get_set_some m).mp hr with ⟨-, hl⟩ | ⟨hne, hr⟩
      · exact .inr hl
      · refine .inl ⟨r, fun heq => hne ?_, hr⟩
        exact Option.mem_unique heq hf
    · have hge : g.inEdge ≠ some e := by
        intro heq
        exact (nodup_cons.mp h.distinct).1 (by rw [hf, ← heq]; exact mem_cons_self)
      have hh : g.node = l → ∃ r, g.inEdge ≠ some r ∧ (m.set e g.node).get r = some l :=
        fun hl => ⟨e, hge, (get_set_some m).mpr (.inl ⟨rfl, hl⟩)⟩
      rintro (⟨r, hout, hr⟩ | hl)
      · by_cases hgr : g.inEdge = some r
        · have ho := (h.owned g mem_cons_self r hout).mpr hgr
          exact hh (Option.mem_unique ho hr)
        · refine ⟨r, hgr, (get_set_some m).mpr (.inr ⟨?_, hr⟩)⟩
          rintro rfl
          exact hout hf
      · exact hh hl

def ClosedSet (adj : ℕ → List R) (matchRight : Dict R ℕ) (W : Finset R) : Prop :=
  ∀ w ∈ W, ∃ l, matchRight.get w = some l ∧ ∀ r ∈ adj l, r ∈ W

lemma Path.avoids {W : Finset R} (hW : ClosedSet adj m W)
    (h : Path adj m start (f :: below)) (hc : c ∈ adj f.node) (ho : c ∉ W) :
    ∀ g ∈ f :: below, ∀ w ∈ W, g.inEdge ≠ some w := by
  have hh : ∀ g ∈ f :: below, ∀ c, c ∈ adj g.node → c ∉ W → ∀ w ∈ W, g.inEdge ≠ some w := by
    intro g hg c hc ho w hw hed
    obtain ⟨l, hl, hin⟩ := hW w hw
    have hn := (h.owned g hg w).mpr hed
    obtain rfl := Option.mem_unique hl hn
    exact ho (hin c hc)
  have hln := h.links
  clear h
  induction below generalizing f c with
  | nil => exact forall_mem_singleton.mpr (hh f mem_cons_self c hc ho)
  | cons g below ih =>
    have hf := hh f mem_cons_self c hc ho
    obtain ⟨⟨e, hed, ha⟩, hln⟩ := isChain_cons_cons.mp hln
    refine forall_mem_cons.mpr ⟨hf, ih ha (fun he => hf e he hed) ?_ hln⟩
    exact fun x hx => hh x (mem_cons_of_mem _ hx)

lemma Path.shifted (h : Path adj m start (f :: below))
    (hm : IsMatching (Edges adj) (Pairs m)) (hc : c ∈ adj f.node)
    (hf : m.get c = none) : Shifted adj (m.set c f.node) f below := by
  have hn : some c ∉ (f :: below).map Frame.inEdge := by
    intro hmem
    obtain ⟨g, hg, he⟩ := mem_map.mp hmem
    have ho := (h.owned g hg c).mpr he
    cases hf.symm.trans ho
  have ht : Shifted adj m ⟨start, [], some c⟩ (f :: below) :=
    { edge := fun r l _ => hm.edge l r
      unique := fun r r' l _ _ => hm.left l r r'
      owned := fun g hg r _ => h.owned g hg r
      links := isChain_cons_cons.mpr ⟨⟨c, rfl, hc⟩, h.links⟩
      distinct := nodup_cons.mpr ⟨hn, h.distinct⟩
      bottom := fun g hg => (h.bottom g hg).2 }
  exact ht.step rfl

lemma Path.held_or_start (h : Path adj m start frames) :
    ∀ g ∈ frames, (∃ r, m.get r = some g.node) ∨ g.node = start := by
  have hl := h.links
  have hb := h.bottom
  have ho := h.owned
  clear h
  induction frames with
  | nil => simp
  | cons f below ih =>
    obtain ⟨hf, hbl⟩ := forall_mem_cons.mp ho
    cases below with
    | nil => exact forall_mem_singleton.mpr (.inr (hb f rfl).1)
    | cons g below =>
      obtain ⟨⟨e, he, -⟩, hl⟩ := isChain_cons_cons.mp hl
      exact forall_mem_cons.mpr ⟨.inl ⟨e, (hf e).mpr he⟩, ih hl hb hbl⟩

lemma Path.covers (h : Path adj m start (f :: below)) (hf : m.get c = none) (l : ℕ) :
    ((∃ r, f.inEdge ≠ some r ∧ (m.set c f.node).get r = some l) ∨ ∃ g ∈ below, g.node = l) ↔
      (∃ r, m.get r = some l) ∨ l = start := by
  have hfc : f.inEdge ≠ some c := by
    intro he
    have ho := (h.owned f mem_cons_self c).mpr he
    cases hf.symm.trans ho
  have ht : f.node = l → ∃ r, f.inEdge ≠ some r ∧ (m.set c f.node).get r = some l :=
    fun hl => ⟨c, hfc, (get_set_some m).mpr (.inl ⟨rfl, hl⟩)⟩
  constructor
  · rintro (⟨r, -, hr⟩ | ⟨g, hg, rfl⟩)
    · rcases (get_set_some m).mp hr with ⟨-, rfl⟩ | ⟨-, hr⟩
      · exact h.held_or_start f mem_cons_self
      · exact .inl ⟨r, hr⟩
    · exact h.held_or_start g (mem_cons_of_mem _ hg)
  · rintro (⟨r, hr⟩ | rfl)
    · by_cases he : f.inEdge = some r
      · have ho := (h.owned f mem_cons_self r).mpr he
        exact .inl (ht (Option.mem_unique ho hr))
      · refine .inl ⟨r, he, (get_set_some m).mpr (.inr ⟨?_, hr⟩)⟩
        rintro rfl
        cases hf.symm.trans hr
    · have hls := getLast?_eq_some_getLast (cons_ne_nil f below)
      have hb := (h.bottom _ hls).1
      rcases mem_cons.mp (getLast_mem (cons_ne_nil f below)) with heq | hm
      · exact .inl (ht (heq ▸ hb))
      · exact .inr ⟨_, hm, hb⟩

structure Built (adj : ℕ → List R) (matchRight : Dict R ℕ) (k : ℕ) : Prop where
  matching : IsMatching (Edges adj) (Pairs matchRight)
  below : ∀ r l, matchRight.get r = some l → l < k
  tight : ∃ W, ClosedSet adj matchRight W ∧ ∀ l < k, (∃ r, matchRight.get r = some l) ∨ ∀ r ∈ adj l, r ∈ W

lemma Built.searching (h : Built adj m k) : Searching adj m k [] [⟨k, adj k, none⟩] where
  owned := by
    refine forall_mem_singleton.mpr fun r => ⟨fun hr => ?_, fun hr => by cases hr⟩
    exact absurd (h.below r k hr) (lt_irrefl k)
  links := isChain_singleton _
  distinct := nodup_singleton _
  bottom := by simp
  seen := by simp
  listed := by simp
  ahead := by simp
  closed := by simp
  started := .inl ⟨_, mem_cons_self, rfl⟩

lemma Built.augment (h : Built adj m k) : Built adj (augment adj m [] [⟨k, adj k, none⟩]) (k + 1) := by
  obtain ⟨W, hW, hrs⟩ := h.tight
  have ho := augment_outcome h.matching h.searching
  generalize WriteLoop.augment adj m [] [⟨k, adj k, none⟩] = next at ho
  cases ho with
  | failed visited hcl hs =>
    refine ⟨h.matching, fun r l hr => (h.below r l hr).trans k.lt_succ_self, W ∪ visited.toFinset, ?_, ?_⟩
    · intro w hw
      rcases Finset.mem_union.mp hw with hw | hw
      · exact (hW w hw).imp fun l hl => ⟨hl.1, fun r hr => Finset.mem_union_left _ (hl.2 r hr)⟩
      · refine (hcl w (mem_toFinset.mp hw)).imp fun l hl => ⟨hl.1, fun r hr => ?_⟩
        exact Finset.mem_union_right _ (mem_toFinset.mpr (hl.2 r hr))
    · intro l hl
      rcases Nat.lt_succ_iff_lt_or_eq.mp hl with hl | rfl
      · exact (hrs l hl).imp id fun hin r hr => Finset.mem_union_left _ (hin r hr)
      · exact .inr fun r hr => Finset.mem_union_right _ (mem_toFinset.mpr (hs r hr))
  | found c f below hp hc hf =>
    obtain ⟨hm, hcv⟩ := (hp.shifted h.matching hc hf).reassign
    simp only [hp.covers hf] at hcv
    have hout : c ∉ W := by
      intro hcW
      obtain ⟨l, hl, -⟩ := hW c hcW
      cases hf.symm.trans hl
    have hk : ∀ w ∈ W, (reassign (m.set c f.node) (f :: below)).get w = m.get w := by
      intro w hw
      rw [get_reassign fun g hg => hp.avoids hW hc hout g hg w hw, get_set, if_neg]
      rintro rfl
      exact hout hw
    refine ⟨hm, fun r l hr => ?_, W, fun w hw => ?_, fun l hl => ?_⟩
    · rcases (hcv l).mp ⟨r, hr⟩ with ⟨r, hr⟩ | rfl
      · exact (h.below r l hr).trans k.lt_succ_self
      · exact l.lt_succ_self
    · rw [hk w hw]
      exact hW w hw
    · rw [hcv]
      rcases Nat.lt_succ_iff_lt_or_eq.mp hl with hl | rfl
      · exact (hrs l hl).imp .inl id
      · exact .inl (.inr rfl)

lemma built_matchAll (adj : ℕ → List R) (k : ℕ) : Built adj (matchAll adj k) k := by
  induction k with
  | zero =>
    have hn : ∀ r : R, get (Table.empty : Dict R ℕ) r = none := get_empty
    refine ⟨⟨?_, ?_, ?_⟩, ?_, ∅, ?_, ?_⟩ <;> simp [Pairs, matchAll, ClosedSet]
  | succ k ih =>
    rw [matchAll, range_succ, foldl_append]
    exact ih.augment

variable {a : List (Option ℤ)}

section

omit [DecidableEq R] in
lemma getElem?_setAll {rows : List (R × ℕ)} (hn : (rows.map snd).Nodup)
    (assignment : List (Option R)) (hl : l < assignment.length) :
    (rows.foldl (fun a p => a.set p.2 (some p.1)) assignment)[l]? = some (some r) ↔
      (r, l) ∈ rows ∨ l ∉ rows.map snd ∧ assignment[l]? = some (some r) := by
  induction rows generalizing assignment with
  | nil => simp
  | cons p rows ih =>
    obtain ⟨r', l'⟩ := p
    obtain ⟨hp, hr⟩ := nodup_cons.mp hn
    rw [foldl_cons, ih hr _ (by rwa [length_set])]
    by_cases heq : l' = l
    · subst heq
      have hnot : (r, l') ∉ rows := fun hm => hp (mem_map.mpr ⟨_, hm, rfl⟩)
      simp [hp, hnot, hl, eq_comm]
    · simp [heq, Ne.symm heq]

omit [DecidableEq R] in
lemma length_setAll (rows : List (R × ℕ)) (assignment : List (Option R)) :
    (rows.foldl (fun a p => a.set p.2 (some p.1)) assignment).length = assignment.length := by
  induction rows generalizing assignment with
  | nil => rfl
  | cons p rows ih => rw [foldl_cons, ih, length_set]

lemma getElem?_assign {n : ℕ} (h : Built adj m n) : (assign n m)[l]? = some (some r) ↔ m.get r = some l := by
  have hn : (m.rows.map snd).Nodup := by
    refine (Nodup.of_map _ m.distinct).map_on ?_
    rintro ⟨r, l⟩ hp ⟨r', l'⟩ hq rfl
    exact congrArg (·, l) (h.matching.left l r r' (get_some.mpr hp) (get_some.mpr hq))
  by_cases hl : l < n
  · rw [assign, getElem?_setAll hn _ (by simpa using hl), get_some, or_iff_left]
    simp [getElem?_replicate]
  refine ⟨fun hr => ?_, fun hr => absurd (h.below r l hr) hl⟩
  have hlen := (List.getElem?_eq_some_iff.mp hr).1
  rw [assign, length_setAll, length_replicate] at hlen
  exact absurd hlen hl

structure Assigns (adjacency : List (List ℤ)) (a : List (Option ℤ)) : Prop where
  length : a.length = adjacency.length
  listed : ∀ (i : ℕ) (r : ℤ), a[i]? = some (some r) → r ∈ (adjacency[i]?).getD []
  unique : ∀ (i j : ℕ) (r : ℤ), a[i]? = some (some r) → a[j]? = some (some r) → i = j

def matchedCount (a : List (Option ℤ)) : ℕ := ((Finset.range a.length).filter fun i => (a[i]?).join.isSome).card

lemma matchedCount_eq_length : matchedCount a = a.length ↔ none ∉ a := by
  have hc := @Finset.card_filter_eq_iff _ (Finset.range a.length) (fun i => (a[i]?).join.isSome) _
  rw [Finset.card_range] at hc
  rw [matchedCount, hc, mem_iff_getElem?]
  constructor
  · rintro h ⟨i, hi⟩
    have hi' := h i (Finset.mem_range.mpr (List.getElem?_eq_some_iff.mp hi).1)
    rw [hi] at hi'
    cases hi'
  · intro h i hi
    rw [getElem?_eq_getElem (Finset.mem_range.mp hi), Option.join_some, Option.isSome_iff_ne_none]
    exact fun hn => h ⟨i, by rw [getElem?_eq_getElem (Finset.mem_range.mp hi), hn]⟩

lemma matchedCount_eq_covered (a : List (Option ℤ)) :
    matchedCount a = (covered (Finset.range a.length) fun i r => a[i]? = some (some r)).card := by
  rw [matchedCount]
  congr 1
  ext i
  simp [mem_covered, Option.isSome_iff_exists, Option.join_eq_some_iff]

variable {adjacency : List (List ℤ)} {b : List (Option ℤ)}

lemma Assigns.isMatching (h : Assigns adjacency a) :
    IsMatching (Edges fun i => (adjacency[i]?).getD []) fun i r => a[i]? = some (some r) where
  edge i r := h.listed i r
  left i r r' hr hr' := by simpa using hr.symm.trans hr'
  right i j r := h.unique i j r

theorem maxBipartiteMatch_maximum (adjacency : List (List ℤ)) (rightCount : ℕ)
    (hleft : adjacency.length ≤ Mutation.maxOperations) (hright : rightCount ≤ Mutation.maxOperations) :
    ∃ a, maxBipartiteMatch adjacency rightCount = .ok a ∧ Assigns adjacency a ∧
      (∀ b, Assigns adjacency b → matchedCount b ≤ matchedCount a) ∧
      ((∃ b, Assigns adjacency b ∧ none ∉ b) → none ∉ a) := by
  let adj : ℕ → List ℤ := fun i => (adjacency[i]?).getD []
  have hbl := built_matchAll adj adjacency.length
  have hg : ∀ i r, (assign adjacency.length (matchAll adj adjacency.length))[i]? = some (some r) ↔
      (matchAll adj adjacency.length).get r = some i := fun i r => getElem?_assign hbl
  have ha : Assigns adjacency (assign adjacency.length (matchAll adj adjacency.length)) := by
    refine ⟨by rw [assign, length_setAll, length_replicate], fun i r hr => ?_, fun i j r hi hj => ?_⟩
    · exact hbl.matching.edge i r ((hg i r).mp hr)
    · exact hbl.matching.right i j r ((hg i r).mp hi) ((hg j r).mp hj)
  generalize hm : assign adjacency.length (matchAll adj adjacency.length) = a at hg ha
  have hmax : ∀ b, Assigns adjacency b → matchedCount b ≤ matchedCount a := by
    intro b hb
    obtain ⟨W, hW, hrs⟩ := hbl.tight
    have ht : Tight (Edges adj) (fun i r => a[i]? = some (some r)) (Finset.range adjacency.length) W := by
      constructor
      · intro w hw
        obtain ⟨l, hl, hin⟩ := hW w hw
        exact ⟨l, Finset.mem_range.mpr (hbl.below w l hl), (hg l w).mpr hl, hin⟩
      · intro l hl
        exact (hrs l (Finset.mem_range.mp hl)).imp (fun ⟨r, hr⟩ => ⟨r, (hg l r).mpr hr⟩) id
    rw [matchedCount_eq_covered, matchedCount_eq_covered, hb.length, ha.length]
    exact ht.card_covered_le ha.isMatching hb.isMatching
  refine ⟨a, ?_, ha, hmax, ?_⟩
  · rw [maxBipartiteMatch, bind_eq_ok]
    exact ⟨(), refuse_eq_ok.mpr (by omega), congrArg Except.ok hm⟩
  rintro ⟨b, hb, hall⟩
  have hle := hmax b hb
  rw [matchedCount_eq_length.mpr hall, hb.length, ← ha.length] at hle
  refine matchedCount_eq_length.mp (le_antisymm ?_ hle)
  exact (Finset.card_filter_le _ _).trans_eq (Finset.card_range _)

theorem crossing_matched :
    ∃ a, maxBipartiteMatch [[0, 1], [0]] 2 = .ok a ∧ Assigns [[0, 1], [0]] a ∧
      (∀ b, Assigns [[0, 1], [0]] b → matchedCount b ≤ matchedCount a) ∧
      ((∃ b, Assigns [[0, 1], [0]] b ∧ none ∉ b) → none ∉ a) :=
  maxBipartiteMatch_maximum [[0, 1], [0]] 2 (by decide) (by decide)

end

end LeafWeb.WriteLoop
