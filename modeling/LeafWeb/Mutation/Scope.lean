import LeafWeb.Mutation.Containment

namespace LeafWeb.Mutation

open Lib List Line

variable {A : Arith} {F : Format} {intake : Intake} {c : Canonical} {ops lines : List Line}

/-- The group an intake has under a name; of several it is the last listed, as in a dictionary. -/
def HeadGroup (intake : Intake) (name : String) (g : GroupRow) : Prop :=
  ∃ earlier later, intake.groups.getD [] = earlier ++ g :: later ∧ foldText g.name = foldText name ∧
    ∀ other ∈ later, foldText other.name ≠ foldText name

def Line.Touches (intake : Intake) (l : Line) (handle : String) : Prop :=
  match l with
  | .relayer h _ | .setPoints h _ _ | .setCircle h _ _ | .setArc h _ _ _ _ | .transform h _ => h = handle
  | .setColor target _ | .setLinetype target _ | .setLineweight target _ => target = s!"H:{handle}"
  | .addGroup _ members => s!"H:{handle}" ∈ members
  | .removeGroup name => ∃ g, HeadGroup intake name g ∧ handle ∈ g.members
  | _ => False

def Line.Absorbs (l : Line) (handle : String) : Prop :=
  match l with
  | .remove h => h = handle
  | .addBlockDef _ _ members => s!"H:{handle}" ∈ members
  | _ => False

def Line.addedLayer : Line → Option String
  | .add layer _ | .addOpen layer _ | .addLine layer _ _ | .addCircle layer _ _ | .addArc layer _ _ _ _
  | .addInsert layer _ _ _ _ | .addDimLinear layer _ _ _ _ _ | .addDimAligned layer _ _ _ _
  | .addMleader layer _ _ _ _ => some layer
  | _ => none

def Line.definedBlock : Line → Option String
  | .addBlockDef name _ _ => some name
  | _ => none

variable {n children : ℕ} {members : List String} {a : Added} {l : Line} {h g name : String}

lemma handle_ref_inj : s!"H:{g}" = s!"H:{h}" ↔ g = h := by
  change "H:" ++ g = "H:" ++ h ↔ g = h
  simp [← String.toList_inj]

lemma add_ref_ne : s!"A:{n}" ≠ s!"H:{h}" := by
  change "A:" ++ toString n ≠ "H:" ++ h
  simp [← String.toList_inj]

lemma child_ref_ne : s!"C:{n}" ≠ s!"H:{h}" := by
  change "C:" ++ toString n ≠ "H:" ++ h
  simp [← String.toList_inj]

lemma mem_group_refs {g : Group} : s!"H:{h}" ∈ g.members.map Member.text ↔ h ∈ g.handles := by
  simp only [Group.handles, mem_map, mem_filterMap]
  constructor
  · rintro ⟨m, hm, ht⟩
    cases m with
    | handle x => exact ⟨_, hm, congrArg some (handle_ref_inj.mp ht)⟩
    | add n => exact absurd ht add_ref_ne
  · rintro ⟨m, hm, hs⟩
    cases m with
    | handle x => exact ⟨_, hm, congrArg (fun x => s!"H:{x}") (Option.some.inj hs)⟩
    | add n => cases hs

lemma mem_expectedOrder : s!"H:{h}" ∈ expectedOrder members children ↔ h ∈ members := by
  simp only [expectedOrder, mem_append, mem_map, handle_ref_inj, child_ref_ne, and_false,
    exists_false, or_false, exists_eq_right]

lemma mem_blockMembers {b : BlockDef} (hb : checkOrder b.members (b.children.getD []).length b.order = .ok ())
    (hmb : blockMembers b = .ok members) : s!"H:{h}" ∈ members ↔ h ∈ b.members := by
  unfold blockMembers at hmb
  split_ifs at hmb with hc
  · simp only [checkOrder, bind_eq_ok, refuse_eq_ok, exists_const] at hb
    have hl := not_not.mp fun hn => hb.2 ⟨members, demand_eq_ok.mp hmb, hn⟩
    exact ⟨fun hm => mem_expectedOrder.mp (hl.2.1 _ hm), fun hm => hl.2.2 _ (mem_expectedOrder.mpr hm)⟩
  · cases hmb
    simp only [mem_map, handle_ref_inj, exists_eq_right]

lemma addedLayer_addLine (h : addLine A F a = .ok l) : l.addedLayer = some a.layer := by
  unfold addLine at h
  split at h
  all_goals simp only [bind_eq_ok, pure_eq_ok] at h
  · obtain ⟨_, -, rfl⟩ := h
    rfl
  · obtain ⟨_, -, rfl⟩ := h
    rfl
  all_goals
    subst h
    rfl

variable {baseIntake : Option Intake}

structure Carried (A : Arith) (F : Format) (c : Canonical) (ops : List Line) : Prop where
  transforms : ∀ t ∈ c.transforms, ∃ plane, .transform t.handle plane ∈ ops
  setLayer : ∀ s ∈ c.setLayer, setLayerLine s ∈ ops
  setPoints : ∀ s ∈ c.setPoints, ∃ plane, .setPoints s.handle s.closed plane ∈ ops
  setCircle : ∀ s ∈ c.setCircle, setCircleLine F s ∈ ops
  setArc : ∀ s ∈ c.setArc, setArcLine F s ∈ ops
  setColor : ∀ op ∈ c.setColor, .setColor s!"H:{op.handle}" (toString op.value) ∈ ops
  setLinetype : ∀ op ∈ c.setLinetype, .setLinetype s!"H:{op.handle}" op.value ∈ ops
  setLineweight : ∀ op ∈ c.setLineweight, .setLineweight s!"H:{op.handle}" (toString op.value) ∈ ops
  addedGroups : ∀ g ∈ c.addedGroups, groupLine g ∈ ops
  removedGroups : ∀ n ∈ c.removedGroups, .removeGroup (upperText n) ∈ ops
  removed : ∀ h ∈ c.removed, .remove h ∈ ops
  blockDefs : ∀ b ∈ c.blockDefs, ∃ members, blockMembers b = .ok members ∧
    .addBlockDef b.name (fixed3 F 3 b.base) members ∈ ops
  added : ∀ a ∈ c.added, ∃ l ∈ ops, addLine A F a = .ok l

lemma mem_setterLines {picked : String → Bool} (h : setterLines A F c picked = .ok lines) :
    (∀ s ∈ c.setLayer, picked s.handle → setLayerLine s ∈ lines) ∧
    (∀ s ∈ c.setPoints, picked s.handle → ∃ plane, .setPoints s.handle s.closed plane ∈ lines) ∧
    (∀ s ∈ c.setCircle, picked s.handle → setCircleLine F s ∈ lines) ∧
    ∀ s ∈ c.setArc, picked s.handle → setArcLine F s ∈ lines := by
  simp only [setterLines, bind_eq_ok, pure_eq_ok] at h
  obtain ⟨points, hpn, rfl⟩ := h
  simp only [mem_append]
  refine ⟨fun s hs hp => ?_, fun s hs hp => ?_, fun s hs hp => ?_, fun s hs hp => ?_⟩
  · exact .inl (.inl (.inl (mem_map_of_mem (mem_filter.mpr ⟨hs, hp⟩))))
  · obtain ⟨l, hl, _, hm⟩ := mem_gather hpn (mem_filter.mpr ⟨hs, hp⟩)
    obtain ⟨lo, rfl⟩ := of_setPointsLine hm
    exact ⟨_, .inl (.inl (.inr hl))⟩
  · exact .inl (.inr (mem_map_of_mem (mem_filter.mpr ⟨hs, hp⟩)))
  · exact .inr (mem_map_of_mem (mem_filter.mpr ⟨hs, hp⟩))

lemma mem_transformLines (h : transformLines A F c baseIntake = .ok lines) :
    ∀ t ∈ c.transforms, ∃ plane, .transform t.handle plane ∈ lines := by
  intro t ht
  rw [transformLines, if_neg (ne_nil_of_mem ht)] at h
  simp only [bind_eq_ok] at h
  obtain ⟨base, -, existing, -, h⟩ := h
  obtain ⟨l, hl, _, hm⟩ := mem_gather h ht
  obtain ⟨_, rfl⟩ := of_transformLine hm
  exact ⟨_, hl⟩

lemma mem_styleLines_of_op {make : String → String → Line} {V : Type} {show' : V → String}
    {styles : List (StyleOp V)} {added : List (Option V)} {op : StyleOp V} (hop : op ∈ styles) :
    make s!"H:{op.handle}" (show' op.value) ∈ styleLines make show' styles added := by
  apply mem_append_left
  exact mem_map_of_mem (mem_sortOn.mpr hop)

lemma carried_planLines (h : planLines A F c baseIntake = .ok ops) : Carried A F c ops := by
  simp only [planLines, bind_eq_ok, pure_eq_ok] at h
  obtain ⟨consumed, hcn, blocks, hbl, transforms, htr, rest, hr, added, had, rfl⟩ := h
  obtain ⟨hly, hp, hc, harc⟩ := mem_setterLines hcn
  obtain ⟨hly', hp', hc', harc'⟩ := mem_setterLines hr
  simp only [decide_eq_true_eq] at hly hp hc harc hly' hp' hc' harc'
  refine
    { transforms := ?_, setLayer := ?_, setPoints := ?_, setCircle := ?_, setArc := ?_, setColor := ?_,
      setLinetype := ?_, setLineweight := ?_, addedGroups := ?_, removedGroups := ?_, removed := ?_,
      blockDefs := ?_, added := ?_ }
  · intro t ht
    obtain ⟨plane, hl⟩ := mem_transformLines htr t ht
    exact ⟨plane, by simp [hl]⟩
  · intro s hs
    by_cases hin : s.handle ∈ c.blockDefs.flatMap BlockDef.members
    · simp [hly s hs hin]
    · simp [hly' s hs hin]
  · intro s hs
    by_cases hin : s.handle ∈ c.blockDefs.flatMap BlockDef.members
    · obtain ⟨plane, hl⟩ := hp s hs hin
      exact ⟨plane, by simp [hl]⟩
    · obtain ⟨plane, hl⟩ := hp' s hs hin
      exact ⟨plane, by simp [hl]⟩
  · intro s hs
    by_cases hin : s.handle ∈ c.blockDefs.flatMap BlockDef.members
    · simp [hc s hs hin]
    · simp [hc' s hs hin]
  · intro s hs
    by_cases hin : s.handle ∈ c.blockDefs.flatMap BlockDef.members
    · simp [harc s hs hin]
    · simp [harc' s hs hin]
  · intro op hop
    have hl : setColor s!"H:{op.handle}" (toString op.value) ∈ styleLines .setColor toString
      c.setColor (c.added.map fun a => a.style.color) := mem_styleLines_of_op hop
    simp only [mem_append, hl, or_true, true_or]
  · intro op hop
    have hl : setLinetype s!"H:{op.handle}" op.value ∈ styleLines .setLinetype id c.setLinetype
      (c.added.map fun a => a.style.linetype) := mem_styleLines_of_op hop
    simp [mem_append, hl, or_true, true_or]
  · intro op hop
    have hl : setLineweight s!"H:{op.handle}" (toString op.value) ∈ styleLines .setLineweight
      toString c.setLineweight (c.added.map fun a => a.style.lineweight) := mem_styleLines_of_op hop
    simp only [mem_append, hl, or_true, true_or]
  · intro g hg
    have hl : groupLine g ∈ c.addedGroups.map groupLine := mem_map_of_mem hg
    simp [mem_append, hl, or_true, true_or]
  · intro n hn
    have hl : removeGroup (upperText n) ∈ c.removedGroups.map fun n => .removeGroup (upperText n) :=
      mem_map.mpr ⟨n, hn, rfl⟩
    simp only [mem_append, hl, or_true, true_or]
  · intro x hx
    have hl : remove x ∈ removeLines c := mem_map_of_mem hx
    by_cases hnil : c.blockDefs = []
    · simp only [if_pos hnil, mem_append, hl, or_true, true_or]
    · simp only [if_neg hnil, mem_append, hl, or_true]
  · intro b hb
    obtain ⟨ls, hls, _, hm⟩ := mem_gather hbl hb
    simp only [blockLines, bind_eq_ok, pure_eq_ok] at hm
    obtain ⟨children, -, members, hmb, rfl⟩ := hm
    refine ⟨members, hmb, ?_⟩
    have hl : addBlockDef b.name (fixed3 F 3 b.base) members ∈ blocks.flatten :=
      mem_flatten.mpr ⟨_, hls, mem_append_right _ mem_cons_self⟩
    simp only [mem_append, hl, or_true, true_or]
  · intro a ha
    obtain ⟨l, hl, _, hm⟩ := mem_gather had ha
    refine ⟨l, ?_, hm⟩
    simp only [mem_append, hl, or_true, true_or]

variable {flags : Flags} {raw : Raw}

lemma headGroup_iff {g : GroupRow} :
    ((intake.groups.getD []).reverse.find? fun g => foldText g.name = foldText name) = some g ↔
      HeadGroup intake name g := by
  rw [find?_eq_some_iff_append]
  simp only [decide_eq_true_eq, Bool.not_eq_true', decide_eq_false_iff_not]
  constructor
  · rintro ⟨hn, later, earlier, hr, hl⟩
    refine ⟨earlier.reverse, later.reverse, ?_, hn, fun other ho => ?_⟩
    · rw [← reverse_reverse (intake.groups.getD []), hr]
      simp
    · exact hl other (mem_reverse.mp ho)
  · rintro ⟨earlier, later, hr, hn, hl⟩
    refine ⟨hn, later.reverse, earlier.reverse, by simp [hr], fun other ho => ?_⟩
    exact hl other (mem_reverse.mp ho)

structure Resolved (intake : Intake) (c : Canonical) : Prop where
  ordered : ∀ b ∈ c.blockDefs, checkOrder b.members (b.children.getD []).length b.order = .ok ()
  inserts : ∀ b ∈ c.blockDefs, b.insert < c.added.length
  names : ∀ n ∈ c.removedGroups, upperText n = n ∧ ∃ g, HeadGroup intake n g

lemma resolved_of_validated (h : validateMutations A intake flags raw = .ok c) : Resolved intake c := by
  refine ⟨fun b hb => ((tidy_of_validated h).blockDefs b hb).ordered, ?_, ?_⟩
  all_goals obtain ⟨index, ds, p, -, hds, -, hp, rfl⟩ := validateMutations_eq_ok.mp h
  · intro b hb
    obtain ⟨d, hd, rfl⟩ := mem_map.mp hb
    obtain ⟨_, -, hdf⟩ := hds.exists_raw (mem_sortOn.mp hd)
    have hlt := ordinalOf_lt (A := A) hp.handles_eq hp.placed.2 (hp.insert_lt hdf)
    simp only [Parts.canonical, length_map, sortAdded, length_sortOn]
    exact hlt
  · intro n hn
    obtain ⟨r, -, hna, hh⟩ := hp.removedGroups.exists_base (mem_sortOn.mp hn)
    obtain ⟨rfl, hnm⟩ := groupName_eq_ok.mp hna
    refine ⟨upperText_again hnm.printable, ?_⟩
    obtain ⟨row, hr, hfl⟩ := mem_map.mp hh
    have hf : ((intake.groups.getD []).reverse.find? fun g =>
        foldText g.name = foldText (upperText r)).isSome := by
      rw [find?_isSome]
      exact ⟨row, mem_reverse.mpr hr, decide_eq_true hfl⟩
    obtain ⟨g, hg⟩ := Option.isSome_iff_exists.mp hf
    exact ⟨g, headGroup_iff.mp hg⟩

def Canonical.Touched (intake : Intake) (c : Canonical) (y : String) : Prop :=
  y ∈ c.changed ∨ (∃ g ∈ c.addedGroups, y ∈ g.handles) ∨
    ∃ n ∈ c.removedGroups, ∃ g, HeadGroup intake n g ∧ y ∈ g.members

def Canonical.Absorbed (c : Canonical) (y : String) : Prop := y ∈ c.removed ∨ ∃ b ∈ c.blockDefs, y ∈ b.members

lemma Resolved.exists_dissolved (h : Resolved intake c) :
    ∃ grouped, dissolved c (some intake) = .ok grouped ∧
      ∀ x, x ∈ grouped ↔ ∃ n ∈ c.removedGroups, ∃ g, HeadGroup intake n g ∧ x ∈ g.members := by
  unfold dissolved
  by_cases hnil : c.removedGroups = []
  · rw [if_pos hnil]
    exact ⟨[], rfl, by simp [hnil]⟩
  rw [if_neg hnil]
  have hf : ∃ groups, gather (fun _ name => demand
      ((intake.groups.getD []).reverse.find? fun g => foldText g.name = foldText name)
      s!"removed group {quoted name} is unavailable in intake") [] c.removedGroups = .ok groups := by
    apply exists_gather
    intro n hn
    obtain ⟨-, g, hg⟩ := h.names n hn
    refine ⟨g, fun sofar => ?_⟩
    rw [demand_eq_ok]
    exact headGroup_iff.mpr hg
  obtain ⟨groups, hgr⟩ := hf
  refine ⟨groups.flatMap GroupRow.members, ?_, fun x => ?_⟩
  · exact bind_eq_ok.mpr ⟨intake, rfl, bind_eq_ok.mpr ⟨groups, hgr, rfl⟩⟩
  rw [mem_flatMap]
  constructor
  · rintro ⟨g, hg, hx⟩
    obtain ⟨n, hn, _, hm⟩ := (exists_of_gather hgr hg).resolve_left not_mem_nil
    exact ⟨n, hn, g, headGroup_iff.mp (demand_eq_ok.mp hm), hx⟩
  rintro ⟨n, hn, g, hg, hx⟩
  obtain ⟨g', hg', _, hm⟩ := mem_gather hgr hn
  have heq : some g' = some g := (demand_eq_ok.mp hm).symm.trans (headGroup_iff.mpr hg)
  obtain rfl := Option.some.inj heq
  exact ⟨g', hg', hx⟩

lemma Resolved.scope (h : Resolved intake c) :
    ∃ scope, mutationScope c (some intake) = .ok scope ∧
      (∀ x, x ∈ scope.touched ↔ ∃ y, upperText y = x ∧ c.Touched intake y) ∧
      (∀ x, x ∈ scope.removed ↔ ∃ y, upperText y = x ∧ c.Absorbed y) ∧
      (∀ x, x ∈ scope.addedLayers ↔ ∃ a ∈ c.added, a.layer = x) ∧
      ∀ x, x ∈ scope.changedBlocks ↔ ∃ b ∈ c.blockDefs, b.name = x := by
  obtain ⟨grouped, hg, hmem⟩ := h.exists_dissolved
  have hr : ∃ layers, gather (fun _ d => demand ((c.added[d.insert]?).map fun a => a.layer)
      "list index out of range") [] c.blockDefs = .ok layers := by
    refine exists_gather (fun d hd => ⟨(c.added.get ⟨d.insert, h.inserts d hd⟩).layer, fun _ => ?_⟩) []
    rw [demand_eq_ok, getElem?_eq_getElem (h.inserts d hd)]
    rfl
  obtain ⟨layers, hl⟩ := hr
  unfold mutationScope
  rw [hg, hl]
  refine ⟨_, rfl, ?_, ?_, ?_, ?_⟩
  · intro x
    simp only [mem_sortedSet, mem_map, mem_append, mem_flatMap, hmem]
    exact exists_congr fun y => by rw [and_comm, or_assoc, Canonical.Touched]
  · intro x
    simp only [mem_sortedSet, mem_map, mem_append, mem_flatMap]
    exact exists_congr fun y => and_comm
  · intro x
    simp only [mem_sortedSet, mem_append, mem_map, or_iff_left_iff_imp]
    intro hx
    obtain ⟨d, -, _, hm⟩ := (exists_of_gather hl hx).resolve_left not_mem_nil
    obtain ⟨a, ha, hly⟩ := Option.map_eq_some_iff.mp (demand_eq_ok.mp hm)
    exact ⟨a, mem_of_getElem? ha, hly⟩
  · intro x
    rw [mem_sortedSet, mem_map]

variable {y : String}

lemma Carried.touches (h : Carried A F c ops) (hc : Resolved intake c) (hy : c.Touched intake y) :
    ∃ l ∈ ops, l.Touches intake y := by
  simp only [Canonical.Touched, Canonical.changed, mem_append, mem_map] at hy
  rcases hy with (((((((⟨t, ht, rfl⟩ | ⟨s, hs, rfl⟩) | ⟨s, hs, rfl⟩) | ⟨s, hs, rfl⟩) | ⟨s, hs, rfl⟩) |
    ⟨op, hop, rfl⟩) | ⟨op, hop, rfl⟩) | ⟨op, hop, rfl⟩) | ⟨g, hg, hy⟩ | ⟨n, hn, g, hg, hy⟩
  · obtain ⟨plane, hl⟩ := h.transforms t ht
    exact ⟨_, hl, rfl⟩
  · exact ⟨_, h.setLayer s hs, rfl⟩
  · obtain ⟨plane, hl⟩ := h.setPoints s hs
    exact ⟨_, hl, rfl⟩
  · exact ⟨_, h.setCircle s hs, rfl⟩
  · exact ⟨_, h.setArc s hs, rfl⟩
  · exact ⟨_, h.setColor op hop, rfl⟩
  · exact ⟨_, h.setLinetype op hop, rfl⟩
  · exact ⟨_, h.setLineweight op hop, rfl⟩
  · exact ⟨_, h.addedGroups g hg, mem_group_refs.mpr hy⟩
  · refine ⟨_, h.removedGroups n hn, g, ?_, hy⟩
    rwa [(hc.names n hn).1]

lemma Carried.absorbs (h : Carried A F c ops) (hc : Resolved intake c) (hy : c.Absorbed y) :
    ∃ l ∈ ops, l.Absorbs y := by
  rcases hy with hy | ⟨b, hb, hy⟩
  · exact ⟨_, h.removed y hy, rfl⟩
  · obtain ⟨members, hm, hl⟩ := h.blockDefs b hb
    exact ⟨_, hl, (mem_blockMembers (hc.ordered b hb) hm).mpr hy⟩

structure Scoped (intake : Intake) (c : Canonical) (l : Line) : Prop where
  touched : ∀ y, l.Touches intake y → c.Touched intake y
  absorbed : ∀ y, l.Absorbs y → c.Absorbed y
  layer : ∀ x, l.addedLayer = some x → ∃ a ∈ c.added, a.layer = x
  block : ∀ x, l.definedBlock = some x → ∃ b ∈ c.blockDefs, b.name = x

lemma scoped_of_touched (h : ∀ y, l.Touches intake y → c.Touched intake y)
    (ha : ∀ y, ¬l.Absorbs y := by exact fun _ => id) (hl : l.addedLayer = none := by rfl)
    (hb : l.definedBlock = none := by rfl) : Scoped intake c l where
  touched := h
  absorbed y hy := absurd hy (ha y)
  layer x hx := by rw [hl] at hx; cases hx
  block x hx := by rw [hb] at hx; cases hx

lemma scoped_of_added (ha : a ∈ c.added) (h : l.addedLayer = some a.layer) : Scoped intake c l where
  touched y hy := by cases l <;> first | exact False.elim hy | cases h
  absorbed y hy := by cases l <;> first | exact False.elim hy | cases h
  layer x hx := ⟨a, ha, Option.mem_unique h hx⟩
  block x hx := by cases l <;> simp only [Line.addedLayer, Line.definedBlock, reduceCtorEq] at h hx

lemma Arises.scoped (h : Arises A F c l) (hc : Resolved intake c) : Scoped intake c l := by
  have hch : ∀ y, y ∈ c.changed → c.Touched intake y := fun _ => .inl
  simp only [Canonical.changed, mem_append, mem_map] at hch
  cases h with
  | setLayer s hs =>
    refine scoped_of_touched fun y hy => hch y ?_
    exact .inl (.inl (.inl (.inl (.inl (.inl (.inr ⟨s, hs, hy⟩))))))
  | setPoints s _ hs hm =>
    obtain ⟨_, rfl⟩ := of_setPointsLine hm
    refine scoped_of_touched fun y hy => hch y ?_
    exact .inl (.inl (.inl (.inl (.inl (.inr ⟨s, hs, hy⟩)))))
  | setCircle s hs =>
    refine scoped_of_touched fun y hy => hch y ?_
    exact .inl (.inl (.inl (.inl (.inr ⟨s, hs, hy⟩))))
  | setArc s hs =>
    refine scoped_of_touched fun y hy => hch y ?_
    exact .inl (.inl (.inl (.inr ⟨s, hs, hy⟩)))
  | transform t existing _ ht hm =>
    obtain ⟨_, rfl⟩ := of_transformLine hm
    refine scoped_of_touched fun y hy => hch y ?_
    exact .inl (.inl (.inl (.inl (.inl (.inl (.inl ⟨t, ht, hy⟩))))))
  | color op hop =>
    refine scoped_of_touched fun y hy => hch y ?_
    exact .inl (.inl (.inr ⟨op, hop, handle_ref_inj.mp hy⟩))
  | linetype op hop =>
    refine scoped_of_touched fun y hy => hch y ?_
    exact .inl (.inr ⟨op, hop, handle_ref_inj.mp hy⟩)
  | lineweight op hop =>
    refine scoped_of_touched fun y hy => hch y ?_
    exact .inr ⟨op, hop, handle_ref_inj.mp hy⟩
  | group g hg =>
    refine scoped_of_touched fun y hy => ?_
    exact .inr (.inl ⟨g, hg, mem_group_refs.mp hy⟩)
  | removeGroup n hn =>
    refine scoped_of_touched fun y hy => ?_
    obtain ⟨g, hg, hy⟩ := hy
    rw [(hc.names n hn).1] at hg
    exact .inr (.inr ⟨n, hn, g, hg, hy⟩)
  | addedColor | addedLinetype | addedLineweight =>
    exact scoped_of_touched fun _ hy => absurd hy add_ref_ne
  | blockChild _ _ _ _ _ _ hm =>
    simp only [blockChildLine, bind_eq_ok, pure_eq_ok] at hm
    obtain ⟨_, -, rfl⟩ := hm
    exact scoped_of_touched fun _ hy => hy.elim
  | added a _ ha hm => exact scoped_of_added ha (addedLayer_addLine hm)
  | remove x hx =>
    refine ⟨fun _ hy => hy.elim, fun y hy => ?_, fun _ hy => ?_, fun _ hy => ?_⟩
    · obtain rfl : x = y := hy
      exact .inl hx
    all_goals cases hy
  | blockDef b members hb hmb =>
    refine ⟨fun _ hy => hy.elim, fun y hy => ?_, fun _ hy => ?_, fun x hx => ?_⟩
    · exact .inr ⟨b, hb, (mem_blockMembers (hc.ordered b hb) hmb).mp hy⟩
    · cases hy
    · exact ⟨b, hb, Option.some.inj hx⟩

theorem mutationScope_covers_plan {sha text : String} {baseIntake : Option Intake} {contract : Option ℤ}
    (hc : validateMutations A intake flags raw = .ok c) (h : emitPlan A F c sha baseIntake contract = .ok text) :
    ∃ header digest ops scope, readPlan text = some (header, digest, ops) ∧
      mutationScope c (some intake) = .ok scope ∧
      (∀ x, x ∈ scope.touched ↔ ∃ l ∈ ops, ∃ y, l.Touches intake y ∧ upperText y = x) ∧
      (∀ x, x ∈ scope.removed ↔ ∃ l ∈ ops, ∃ y, l.Absorbs y ∧ upperText y = x) ∧
      (∀ x, x ∈ scope.addedLayers ↔ ∃ l ∈ ops, l.addedLayer = some x) ∧
      ∀ x, x ∈ scope.changedBlocks ↔ ∃ l ∈ ops, l.definedBlock = some x := by
  obtain ⟨ops, ho, -, -, hrd⟩ := emitted_lines hc h
  have hr := resolved_of_validated hc
  have hcr := carried_planLines ho
  obtain ⟨scope, hs, htc, hrm, hly, hbl⟩ := hr.scope
  refine ⟨_, _, ops, scope, hrd, hs, fun x => ?_, fun x => ?_, fun x => ?_, fun x => ?_⟩
  · rw [htc]
    constructor
    · rintro ⟨y, rfl, hy⟩
      obtain ⟨l, hl, ht⟩ := hcr.touches hr hy
      exact ⟨l, hl, y, ht, rfl⟩
    · rintro ⟨l, hl, y, ht, rfl⟩
      exact ⟨y, rfl, ((arises_planLines ho hl).scoped hr).touched y ht⟩
  · rw [hrm]
    constructor
    · rintro ⟨y, rfl, hy⟩
      obtain ⟨l, hl, hab⟩ := hcr.absorbs hr hy
      exact ⟨l, hl, y, hab, rfl⟩
    · rintro ⟨l, hl, y, hab, rfl⟩
      exact ⟨y, rfl, ((arises_planLines ho hl).scoped hr).absorbed y hab⟩
  · rw [hly]
    constructor
    · rintro ⟨a, ha, rfl⟩
      obtain ⟨l, hl, hm⟩ := hcr.added a ha
      exact ⟨l, hl, addedLayer_addLine hm⟩
    · rintro ⟨l, hl, hlr⟩
      exact ((arises_planLines ho hl).scoped hr).layer x hlr
  · rw [hbl]
    constructor
    · rintro ⟨b, hb, rfl⟩
      obtain ⟨members, -, hl⟩ := hcr.blockDefs b hb
      exact ⟨_, hl, rfl⟩
    · rintro ⟨l, hl, hn⟩
      exact ((arises_planLines ho hl).scoped hr).block x hn

def relayeredPlan : String :=
  joined '\n' ["LEAF_MUTATION_PLAN|2", joined '|' ["BASE_SHA256", blankDigest], "RELAYER|2f|walls", ""]

theorem relayered_plan_covered :
    ∃ header digest ops scope, readPlan relayeredPlan = some (header, digest, ops) ∧
      mutationScope (relayeredCanonical "2f" "walls") (some (.circles ["2f", "30"])) = .ok scope ∧
      (∀ x, x ∈ scope.touched ↔ ∃ l ∈ ops, ∃ y, l.Touches (.circles ["2f", "30"]) y ∧ upperText y = x) ∧
      (∀ x, x ∈ scope.removed ↔ ∃ l ∈ ops, ∃ y, l.Absorbs y ∧ upperText y = x) ∧
      (∀ x, x ∈ scope.addedLayers ↔ ∃ l ∈ ops, l.addedLayer = some x) ∧
      ∀ x, x ∈ scope.changedBlocks ↔ ∃ l ∈ ops, l.definedBlock = some x := by
  have hc : validateMutations exactArith (.circles ["2f", "30"]) .default (relayered "2f" "walls") =
      .ok (relayeredCanonical "2f" "walls") := by decide +kernel
  have h : emitPlan exactArith wholeFormat (relayeredCanonical "2f" "walls") blankDigest none none =
      .ok relayeredPlan := by decide +kernel
  exact mutationScope_covers_plan hc h

end LeafWeb.Mutation
