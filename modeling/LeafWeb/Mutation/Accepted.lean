import LeafWeb.Mutation.Validate

namespace LeafWeb.Mutation

open Lib List

variable {p q : Pt} {minimum position total : ℕ} {pts qts : List Pt} {field s why h l op raw n name : String}
  {limit x : ℚ} {v : Option String}

lemma number_eq_ok {v : Option ℚ} : number v field limit = .ok x ↔ v = some x ∧ |x| ≤ limit := by
  simp only [number, bind_demand, bind_refuse, pure_eq_ok, not_lt]
  constructor
  · rintro ⟨y, rfl, hy, rfl⟩
    exact ⟨rfl, hy⟩
  · rintro ⟨rfl, hx⟩
    exact ⟨x, rfl, hx, rfl⟩

lemma safe_eq_ok {pattern : String → Bool} : safe pattern v why = .ok s ↔ v = some s ∧ pattern s := by
  simp only [safe, bind_demand, bind_refuse, pure_eq_ok, not_not]
  constructor
  · rintro ⟨t, rfl, ht, rfl⟩
    exact ⟨rfl, ht⟩
  · rintro ⟨rfl, hs⟩
    exact ⟨s, rfl, hs, rfl⟩

lemma existingHandle_eq_ok {v : String} : existingHandle v field = .ok h ↔ v = h ∧ safeExisting h := by
  rw [existingHandle, safe_eq_ok, Option.some.injEq]

lemma layerName_eq_ok : layerName v = .ok l ↔ v = some l ∧ safeName l := by
  simp only [layerName, bind_eq_ok, safe_eq_ok, refuse_eq_ok, exists_const, pure_eq_ok]
  constructor
  · rintro ⟨t, ⟨hv, ht⟩, -, rfl⟩
    exact ⟨hv, ht⟩
  rintro ⟨hv, hl⟩
  refine ⟨l, ⟨hv, hl⟩, ?_, rfl⟩
  rintro (rfl | rfl | hc | hc | hc)
  · exact absurd hl (by decide)
  · exact absurd hl (by decide)
  all_goals exact not_mem_of_safeName hl (by decide) hc

def Pt.Bounded (p : Pt) : Prop :=
  |p.x| ≤ maxCoordinate ∧ |p.y| ≤ maxCoordinate ∧ |p.z| ≤ maxCoordinate

def spot : List ℚ → Pt
  | [x, y] => ⟨x, y, 0⟩
  | [x, y, z] => ⟨x, y, z⟩
  | _ => .origin

variable {v : Option (List (List ℚ))} {t : Targets} {c w : ℤ} {known : List String}

lemma point3_eq_ok {v : Option (List ℚ)} :
    point3 v field = .ok p ↔ ∃ l, v = some l ∧ (l.length = 2 ∨ l.length = 3) ∧ spot l = p ∧ p.Bounded := by
  have hzr : |(0 : ℚ)| ≤ maxCoordinate := by
    norm_num [maxCoordinate]
  rcases v with _ | ⟨_ | ⟨x, _ | ⟨y, _ | ⟨z, _ | ⟨w, l⟩⟩⟩⟩⟩
  · simp [point3]
  · simp [point3]
  · simp [point3]
  · simp only [point3, bind_eq_ok, number_eq_ok, pure_eq_ok, Option.some.injEq]
    constructor
    · rintro ⟨_, ⟨rfl, hx⟩, _, ⟨rfl, hy⟩, rfl⟩
      exact ⟨_, rfl, .inl rfl, rfl, hx, hy, hzr⟩
    · rintro ⟨_, rfl, -, rfl, hx, hy, -⟩
      exact ⟨x, ⟨rfl, hx⟩, y, ⟨rfl, hy⟩, rfl⟩
  · simp only [point3, bind_eq_ok, number_eq_ok, pure_eq_ok, Option.some.injEq]
    constructor
    · rintro ⟨_, ⟨rfl, hx⟩, _, ⟨rfl, hy⟩, _, ⟨rfl, hz⟩, rfl⟩
      exact ⟨_, rfl, .inr rfl, rfl, hx, hy, hz⟩
    · rintro ⟨_, rfl, -, rfl, hx, hy, hz⟩
      exact ⟨x, ⟨rfl, hx⟩, y, ⟨rfl, hy⟩, z, ⟨rfl, hz⟩, rfl⟩
  · simp [point3]

lemma bounded_of_point3 {v : Option (List ℚ)} (h : point3 v field = .ok p) : p.Bounded := by
  obtain ⟨-, -, -, -, hb⟩ := point3_eq_ok.mp h
  exact hb

lemma point3_raw : point3 (some p.raw) field = .ok q ↔ p.Bounded ∧ p = q := by
  rw [point3_eq_ok]
  constructor
  · rintro ⟨l, hl, -, hq, hb⟩
    obtain rfl := Option.some.inj hl
    have hpq : p = q := hq
    exact ⟨hpq ▸ hb, hpq⟩
  · rintro ⟨hb, rfl⟩
    exact ⟨_, rfl, .inr rfl, rfl, hb⟩

lemma points_eq_ok :
    points v field minimum = .ok pts ↔
      ∃ l, v = some l ∧ (minimum ≤ l.length ∧ l.length ≤ maxPointsPerEntity) ∧
        Forall₂ (fun a p => point3 (some a) "" = .ok p) l pts := by
  have hl : ∀ l : List (List ℚ),
      gather (fun out p => let index := out.length; point3 (some p) s!"{field} point {index}") [] l =
        .ok pts ↔ Forall₂ (fun a p => point3 (some a) "" = .ok p) l pts := by
    intro l
    apply gather_each
    intro out a p
    rw [point3_eq_ok, point3_eq_ok]
  simp only [points, bind_demand, bind_refuse, not_not]
  exact exists_congr fun l => and_congr_right fun _ => and_congr_right fun _ => hl l

lemma length_of_points (h : points v field minimum = .ok pts) :
    minimum ≤ pts.length ∧ pts.length ≤ maxPointsPerEntity := by
  obtain ⟨l, -, hl, ha⟩ := points_eq_ok.mp h
  rwa [ha.length_eq] at hl

lemma bounded_of_points (h : points v field minimum = .ok pts) : ∀ p ∈ pts, p.Bounded := by
  obtain ⟨l, -, -, ha⟩ := points_eq_ok.mp h
  intro p hp
  obtain ⟨i, hi, rfl⟩ := mem_iff_getElem.mp hp
  have hi' : i < l.length := by rwa [ha.length_eq]
  exact bounded_of_point3 (ha.get hi' hi)

lemma points_raw (pts : List Pt) :
    points (some (pts.map Pt.raw)) field minimum = .ok qts ↔
      (minimum ≤ pts.length ∧ pts.length ≤ maxPointsPerEntity) ∧ (∀ p ∈ pts, p.Bounded) ∧ pts = qts := by
  rw [points_eq_ok]
  constructor
  · rintro ⟨l, hl, hlen, ha⟩
    obtain rfl := Option.some.inj hl
    rw [length_map] at hlen
    rw [forall₂_map_left_iff] at ha
    simp only [point3_raw] at ha
    have heq : pts = qts := forall₂_eq_eq_eq ▸ ha.imp fun _ _ h => h.2
    subst heq
    exact ⟨hlen, fun p hp => ((forall₂_same.mp ha) p hp).1, rfl⟩
  · rintro ⟨hlen, hb, rfl⟩
    refine ⟨_, rfl, by rwa [length_map], ?_⟩
    rw [forall₂_map_left_iff, forall₂_same]
    exact fun p hp => point3_raw.mpr ⟨hb p hp, rfl⟩

lemma Pt.rounded_rounded (d : ℕ) (p : Pt) : (p.rounded d).rounded d = p.rounded d := by
  simp [Pt.rounded]

lemma Pt.Bounded.rounded (h : p.Bounded) (d : ℕ) : (p.rounded d).Bounded := by
  have hm : maxCoordinate = ((1000000000 : ℕ) : ℚ) := by norm_num [maxCoordinate]
  unfold Pt.Bounded at h ⊢
  exact ⟨abs_roundTo_le d _ h.1, abs_roundTo_le d _ h.2.1, abs_roundTo_le d _ h.2.2⟩

def Removes (index : Index) (raw h : String) : Prop := raw = h ∧ safeExisting h ∧ index.get h ≠ none

structure Transforms (flags : Flags) (index : Index) (removed : List String) (raw : RawTransform)
    (t : Transform) : Prop where
  handle : raw.handle = t.handle
  safe : safeExisting t.handle
  kind : kindOf index t.handle = some .lwpolyline
  kept : t.handle ∉ removed
  dx : raw.dx = some t.dx
  dx_le : |t.dx| ≤ 10000
  dy : raw.dy = some t.dy
  dy_le : |t.dy| ≤ 10000
  rotation : raw.rotationDeg.getD 0 = t.rotationDeg
  rotation_le : |t.rotationDeg| ≤ 360
  moves : ¬(t.dx = 0 ∧ t.dy = 0 ∧ t.rotationDeg = 0 ∧ flags.rejectNoop)

structure OnTarget (t : Targets) (kinds : List Kind) (h : String) (e : Entity) : Prop where
  safe : safeExisting h
  found : ∃ kind ∈ kinds, kind ≠ .multileader ∧ t.index.get h = some (kind, e)
  free : h ∈ t.removed → h ∈ t.consumed

lemma target_eq_ok {e : Entity} {kinds : List Kind} : target t raw op position kinds = .ok (h, e) ↔ raw = h ∧
    OnTarget t kinds h e := by
  simp only [target, bind_eq_ok, existingHandle_eq_ok, demand_eq_ok, refuse_eq_ok, exists_const,
    pure_eq_ok, Prod.exists, Prod.mk.injEq, not_and, not_not]
  constructor
  · rintro ⟨_, ⟨rfl, hs⟩, kind, _, hg, hf, hml, hk, rfl, rfl⟩
    exact ⟨rfl, hs, ⟨kind, hk, hml, hg⟩, hf⟩
  · rintro ⟨rfl, hs, ⟨kind, hk, hml, hg⟩, hf⟩
    exact ⟨raw, ⟨rfl, hs⟩, kind, e, hg, hf, hml, hk, rfl, rfl⟩

def SetsLayer (flags : Flags) (t : Targets) (raw s : SetLayer) : Prop :=
  raw = s ∧ safeName s.layer ∧ ∃ e, OnTarget t [.lwpolyline, .circle, .arc] s.handle e ∧
    ¬(some s.layer = e.layer ∧ flags.rejectNoop)

structure SetsPoints (A : Arith) (flags : Flags) (t : Targets) (raw : RawSetPoints) (s : SetPoints)
    (e : Entity) : Prop where
  handle : raw.handle = s.handle
  target : OnTarget t [.lwpolyline] s.handle e
  still : s.handle ∉ t.transformed
  closed : raw.closed.getD (e.closed.getD false) = s.closed
  pts : points (some raw.pts) "" (if s.closed then 3 else 2) = .ok s.pts
  planar : s.handle ∈ t.consumed → planarUp (worldToOcsAny A s.pts) = .ok ()
  moves : ¬(s.pts.map Pt.raw = (e.pts.getD []).map padded ∧ s.closed = e.closed.getD false ∧ flags.rejectNoop)

lemma points_field (field field' : String) :
    points v field minimum = .ok pts ↔ points v field' minimum = .ok pts := by
  rw [points_eq_ok, points_eq_ok]

lemma setPointsStep_eq_ok {raw : RawSetPoints} {s : SetPoints} {A : Arith} {flags : Flags} {out : List SetPoints} :
    setPointsStep A flags t total out raw = .ok s ↔
      (∃ e, SetsPoints A flags t raw s e) ∧ s.handle ∉ out.map SetPoints.handle ∧
        total + (out.map fun s => s.pts.length).sum + s.pts.length ≤ maxPoints := by
  simp only [setPointsStep, bind_eq_ok, Prod.exists, target_eq_ok, refuse_eq_ok, exists_const,
    given_eq_ok, boundPoints, pure_eq_ok, not_lt, not_or]
  constructor
  · rintro ⟨_, e, ⟨rfl, he⟩, ⟨ho, hs⟩, pts, hpts, hp, hb, hm, rfl⟩
    exact ⟨⟨e, rfl, he, hs, rfl, (points_field _ _).mp hpts, hp, hm⟩, ho, hb⟩
  rintro ⟨⟨e, h⟩, ho, hb⟩
  obtain ⟨h, closed, pts⟩ := s
  obtain ⟨rfl, he, hs, rfl, hpts, hp, hm⟩ := h
  exact ⟨_, e, ⟨rfl, he⟩, ⟨ho, hs⟩, pts, (points_field _ _).mp hpts, hp, hb, hm, rfl⟩

structure SetsCircle (flags : Flags) (t : Targets) (raw : RawSetCircle) (s : SetCircle) (e : Entity) : Prop where
  handle : raw.handle = s.handle
  target : OnTarget t [.circle] s.handle e
  up : normalIsUp e.nrm
  centre : point3 (some raw.c) "" = .ok s.c
  radius : raw.r = s.r
  radius_le : |s.r| ≤ maxCoordinate
  positive : ¬s.r ≤ 0
  moves : ¬(flags.rejectNoop ∧ sameCentre e s.c s.r)

lemma point3_field (field field' : String) {v : Option (List ℚ)} :
    point3 v field = .ok p ↔ point3 v field' = .ok p := by
  rw [point3_eq_ok, point3_eq_ok]

structure SetsArc (flags : Flags) (t : Targets) (raw : RawSetArc) (s : SetArc) (e : Entity) : Prop where
  handle : raw.handle = s.handle
  target : OnTarget t [.arc] s.handle e
  up : normalIsUp e.nrm
  centre : point3 (some raw.c) "" = .ok s.c
  radius : raw.r = s.r
  radius_le : |s.r| ≤ maxCoordinate
  positive : ¬s.r ≤ 0
  start : raw.startDeg = s.startDeg
  start_le : |s.startDeg| ≤ maxAngleDeg
  stop : raw.endDeg = s.endDeg
  stop_le : |s.endDeg| ≤ maxAngleDeg
  sweep : ¬noSweep s.startDeg s.endDeg
  moves : ¬(flags.rejectNoop ∧ sameCentre e s.c s.r ∧ e.startDeg = some s.startDeg ∧ e.endDeg = some s.endDeg)

lemma colorValue_eq_ok {v : ℤ} : colorValue v = .ok c ↔ v = c ∧ 0 ≤ c ∧ c ≤ 256 := by
  simp only [colorValue, bind_refuse, pure_eq_ok, not_not]
  constructor
  · rintro ⟨h, rfl⟩
    exact ⟨rfl, h⟩
  · rintro ⟨rfl, h⟩
    exact ⟨h, rfl⟩

lemma lineweightValue_eq_ok {v : ℤ} : lineweightValue v = .ok w ↔ v = w ∧ w ∈ lineweights := by
  simp only [lineweightValue, bind_refuse, pure_eq_ok, not_not]
  constructor
  · rintro ⟨h, rfl⟩
    exact ⟨rfl, h⟩
  · rintro ⟨rfl, h⟩
    exact ⟨h, rfl⟩

lemma linetypeValue_eq_ok {v : String} :
    linetypeValue known v = .ok n ↔ safeName v ∧ canonicalLinetypeName v known = some n := by
  simp only [linetypeValue, bind_eq_ok, safe_eq_ok, demand_eq_ok, Option.some.injEq]
  constructor
  · rintro ⟨_, ⟨rfl, hv⟩, hn⟩
    exact ⟨hv, hn⟩
  · rintro ⟨hv, hn⟩
    exact ⟨v, ⟨rfl, hv⟩, hn⟩

lemma styleOf_eq_ok {raw : RawAdded} {s : Style} :
    styleOf known raw = .ok s ↔
      perhaps colorValue raw.color = .ok s.color ∧
        perhaps (linetypeValue known) raw.linetype = .ok s.linetype ∧
          perhaps lineweightValue raw.lineweight = .ok s.lineweight := by
  simp only [styleOf, bind_eq_ok, pure_eq_ok]
  constructor
  · rintro ⟨c, hc, l, hl, w, hw, rfl⟩
    exact ⟨hc, hl, hw⟩
  · rintro ⟨hc, hl, hw⟩
    exact ⟨_, hc, _, hl, _, hw, rfl⟩

structure SetsStyle {V : Type} (flags : Flags) (intake : Intake) (t : Targets)
    (inserts : List Entity) (rule : StyleRule V) (raw s : StyleOp V) : Prop where
  handle : raw.handle = s.handle
  safe : safeExisting s.handle
  kept : s.handle ∉ t.removed
  known : ¬(t.index.get s.handle = none ∧ some s.handle ∉ inserts.map Entity.handle)
  kind : kindOf t.index s.handle ≠ some .multileader
  value : rule.check raw.value = .ok s.value
  moves : ¬(flags.rejectNoop ∧ rule.same (recordOf intake s.handle) s.value)

def GroupNamed (name : String) : Prop :=
  name = strip name ∧ 1 ≤ name.length ∧ name.length ≤ 255 ∧ name.toList.all groupChar

lemma GroupNamed.printable (h : GroupNamed name) : name.toList.all printable := by
  have hch := h.2.2.2
  rw [all_eq_true] at hch ⊢
  intro c hc
  exact (Bool.and_eq_true_iff.mp (hch c hc)).1

lemma groupName_eq_ok {v : String} : groupName v = .ok name ↔ upperText v = name ∧ GroupNamed name := by
  simp only [groupName, bind_refuse, pure_eq_ok, not_not, ne_eq]
  constructor
  · rintro ⟨hs, hc, rfl⟩
    have ha : upperText (upperText v) = upperText v := upperText_again (GroupNamed.printable ⟨hs, hc⟩)
    rw [ha]
    exact ⟨rfl, hs, hc⟩
  · rintro ⟨rfl, h⟩
    exact ⟨h.1, h.2, upperText_again h.printable⟩

lemma groupName_again {v : String} (h : groupName v = .ok name) : groupName name = .ok name := by
  obtain ⟨rfl, hn⟩ := groupName_eq_ok.mp h
  exact groupName_eq_ok.mpr ⟨upperText_again hn.printable, hn⟩

inductive Joins (intake : Intake) (removed : List String) (o : Ordinals) : RawMember → Member → Prop
  | handle (h : String) (hsafe : safeExisting h)
    (hleader : ¬∃ e ∈ intake.rows .mleaders, upperText (e.handle.getD "") = upperText h)
    (hmember : isMemberHandle intake (upperText h)) (hkept : upperText h ∉ removed.map upperText) :
    Joins intake removed o (.handle h) (.handle (upperText h))
  | add (n : ℕ) (hn : n < o.added.length) (hleader : ¬o.added[o.of n]?.any isMleader = true) :
    Joins intake removed o (.add n) (.add (o.of n))

variable {intake : Intake} {removed : List String} {o : Ordinals}

lemma groupMember_eq_ok {raw : RawMember} {m : Member} :
    groupMember intake removed o raw = .ok m ↔ Joins intake removed o raw m := by
  cases raw with
  | handle h =>
    simp only [groupMember, bind_eq_ok, existingHandle_eq_ok, refuse_eq_ok, exists_const, pure_eq_ok, not_not]
    constructor
    · rintro ⟨_, ⟨rfl, hs⟩, hl, hm, hk, rfl⟩
      exact .handle h hs hl hm hk
    rintro ⟨⟩
    rename_i hs hl hm hk
    exact ⟨h, ⟨rfl, hs⟩, hl, hm, hk, rfl⟩
  | add n =>
    simp only [groupMember, bind_refuse, pure_eq_ok, not_not]
    constructor
    · rintro ⟨⟨hlow, hh⟩, hl, rfl⟩
      have hn : RawMember.add n = .add ((n.toNat : ℕ) : ℤ) := by rw [Int.toNat_of_nonneg hlow]
      rw [hn]
      exact .add n.toNat (by omega) hl
    · rintro ⟨⟩
      rename_i n hn hl
      exact ⟨⟨by omega, by omega⟩, hl, rfl⟩

lemma gather_groupMember {raw : List RawMember} {members : List Member} :
    gather (groupMemberStep intake removed o) [] raw = .ok members ↔
      Forall₂ (Joins intake removed o) raw members ∧ members.Nodup := by
  have hl : gather (groupMemberStep intake removed o) [] raw = .ok members ↔
      Forall₂ (Joins intake removed o) raw members ∧ (members.map id).Nodup := by
    apply gather_keyed
    intro out raw m
    simp only [groupMemberStep, bind_eq_ok, groupMember_eq_ok, refuse_eq_ok, exists_const, pure_eq_ok, map_id]
    constructor
    · rintro ⟨_, hj, ho, rfl⟩
      exact ⟨hj, ho⟩
    · rintro ⟨hj, ho⟩
      exact ⟨m, hj, ho, rfl⟩
  rwa [map_id] at hl

structure Groups (intake : Intake) (removed removedGroups : List String) (o : Ordinals)
    (raw : RawGroup) (g : Group) : Prop where
  named : groupName raw.name = .ok g.name
  free : ¬(foldText g.name ∈ headGroups intake ∧ foldText g.name ∉ removedGroups.map foldText)
  enough : ¬raw.members.length < 2
  joins : Forall₂ (Joins intake removed o) raw.members g.members
  nodup : g.members.Nodup

end LeafWeb.Mutation
