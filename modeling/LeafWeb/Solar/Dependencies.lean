import LeafWeb.Lib.Gather
import LeafWeb.Lib.Reachable
import Mathlib.Data.String.Basic

/-! `solar_dependencies.py`: what a change of the design graph affects, along the edges before and after it. -/

namespace LeafWeb.Solar

open List Lib Relation Prod

abbrev Id := String

abbrev Refs := List Id

structure Zone where
  id : Id
  panel_refs : Refs

structure Frame where
  id : Id
  electrical_zone_ref : Option Id
  /-- `slots` are the panels of the decoded `ground_slots`, none if the frame has no such block. -/
  (panel_refs slots : Refs)

structure PanelString where
  id : Id
  ordered_panel_refs : Refs
  (inverter_ref pathway_ref : Option Id)

structure Inverter where
  id : Id
  l2_ref : Option Id

structure Route where
  id : Id
  (from_ref to_ref pathway_ref : Option Id)

structure Schedule where
  id : Id
  source_refs : Refs

structure Graph where
  (project settings : Id)
  electrical_zones : List Zone
  frames : List Frame
  panels : Refs
  strings : List PanelString
  inverters : List Inverter
  routes : List Route
  schedules : List Schedule

def Graph.collections (g : Graph) : Refs :=
  g.electrical_zones.map Zone.id ++ g.frames.map Frame.id ++ g.panels ++ g.strings.map PanelString.id ++
    g.inverters.map Inverter.id ++ g.routes.map Route.id ++ g.schedules.map Schedule.id

def Graph.entities (g : Graph) : Refs := g.project :: g.settings :: g.collections

def Graph.slots (g : Graph) : Refs := g.frames.flatMap Frame.slots

/-- The checks of `validate_graph` on the references whose targets an edge adds; the others refuse more. -/
def validate_graph (g : Graph) : Except String Graph := do
  refuse (∃ f ∈ g.frames, ∃ p ∈ f.panel_refs, p ∉ g.panels) "FRAME_MEMBERSHIP_MISMATCH"
  refuse (∃ z ∈ g.electrical_zones, ∃ p ∈ z.panel_refs, p ∉ g.slots ∧ p ∉ g.panels) "MISSING_PANEL"
  refuse (∃ s ∈ g.strings, ∃ i ∈ s.inverter_ref, i ∉ g.inverters.map Inverter.id) "INVERTER_ASSIGNMENT_MISMATCH"
  refuse (∃ i ∈ g.inverters, ∃ l2 ∈ i.l2_ref, l2 ∉ g.inverters.map Inverter.id) "L2_ASSIGNMENT_MISMATCH"
  return g

def edge (source : Option Id) (target : Id) : List (Id × Id) := (source.toList.filter (· ≠ target)).map (·, target)

/-- The index as its keys and its pairs of a source and a consumer. -/
structure Index where
  keys : Refs
  edges : List (Id × Id)

def Graph.edges (g : Graph) : List (Id × Id) :=
  g.entities.flatMap (edge g.project) ++ g.collections.flatMap (edge g.settings) ++
  g.frames.flatMap (fun f => edge f.electrical_zone_ref f.id ++ f.panel_refs.flatMap (edge f.id) ++
    f.slots.flatMap fun p => edge g.project p ++ edge g.settings p ++ edge f.id p) ++
  g.electrical_zones.flatMap (fun z => z.panel_refs.flatMap (edge z.id)) ++
  g.strings.flatMap (fun s => s.ordered_panel_refs.flatMap (edge · s.id) ++
    s.inverter_ref.toList.flatMap (edge s.id) ++ edge s.pathway_ref s.id) ++
  g.inverters.flatMap (fun i => i.l2_ref.toList.flatMap (edge i.id)) ++
  g.routes.flatMap (fun r => edge r.from_ref r.id ++ edge r.to_ref r.id ++ edge r.pathway_ref r.id) ++
  g.schedules.flatMap fun s => s.source_refs.flatMap (edge · s.id)

def Graph.known (g : Graph) : Refs := g.entities ++ g.slots ++ g.edges.map fst

def dependency_index (graph : Graph) : Except String Index := do
  let graph ← validate_graph graph
  return ⟨graph.known, graph.edges⟩

def Graph.members (g : Graph) (id : Id) : Option Refs :=
  (g.strings.reverse.find? fun s => s.id = id).map PanelString.ordered_panel_refs

structure MembershipChange where
  (before after : Refs)
  (before_count after_count : ℕ)

def membershipChange (previous current : Option Refs) : Option MembershipChange :=
  let before := previous.getD []
  let after := current.getD []
  if previous = none ∨ current = none ∨ before ≠ after then
    some ⟨before, after, before.length, after.length⟩
  else none

def changes (before after : Graph) : List (Id × MembershipChange) :=
  (sortOn id ((before.strings ++ after.strings).map PanelString.id).dedup).filterMap fun id =>
    (membershipChange (before.members id) (after.members id)).map (id, ·)

def membership_changes (before after : Graph) : Except String (List (Id × MembershipChange)) := do
  let before ← validate_graph before
  let after ← validate_graph after
  refuse (before.project ≠ after.project) "PROJECT_ID_MISMATCH"
  return changes before after

def affected_entities (before after : Graph) (changed_ids : Refs) : Except String Refs := do
  refuse (100000 < changed_ids.length) "INVALID_CHANGED_IDS"
  let old ← dependency_index before
  let new ← dependency_index after
  let changed_memberships ← membership_changes before after
  refuse (∃ id ∈ changed_ids, id ∉ old.keys ∧ id ∉ new.keys) "UNKNOWN_CHANGED_ID"
  return closure (old.edges ++ new.edges) (changed_ids ++ changed_memberships.map fst)

variable {g before after : Graph} {changed result : Refs} {x y : Id}

lemma snd_of_edge {source : Option Id} {target : Id} (h : (x, y) ∈ edge source target) : y = target := by
  obtain ⟨s, -, heq⟩ := mem_map.mp h
  exact (mk.inj heq).2.symm

lemma known_of_edge (hv : validate_graph g = .ok g) (h : (x, y) ∈ g.edges) : y ∈ g.known := by
  simp only [validate_graph, bind_refuse, not_exists, not_and, not_not] at hv
  obtain ⟨hf, hz, hs, hi, -⟩ := hv
  apply mem_append_left
  simp only [Graph.edges, mem_append, mem_flatMap] at h
  rcases h with ((((((⟨t, ht, h⟩ | ⟨t, ht, h⟩) | ⟨f, hm, (h | ⟨p, hp, h⟩) | ⟨p, hp, (h | h) | h⟩⟩) |
    ⟨z, hm, p, hp, h⟩) | ⟨s, hm, (⟨p, hp, h⟩ | ⟨p, hp, h⟩) | h⟩) | ⟨i, hm, p, hp, h⟩) |
    ⟨r, hm, (h | h) | h⟩) | ⟨s, hm, p, hp, h⟩
  all_goals
    obtain rfl := snd_of_edge h
    simp only [Graph.entities, Graph.collections, Graph.slots, mem_append, mem_cons, mem_map, mem_flatMap,
      Option.mem_toList, Option.mem_def] at *
    grind

lemma members_ne_none (g : Graph) (x : Id) : g.members x ≠ none ↔ x ∈ g.strings.map PanelString.id := by
  simp [Graph.members]

lemma known_of_members (h : g.members x ≠ none) : x ∈ g.known := by
  have hs := (members_ne_none g x).mp h
  simp [Graph.known, Graph.entities, Graph.collections, hs]

lemma mem_changes : x ∈ (changes before after).map fst ↔ before.members x ≠ after.members x := by
  have hc : x ∈ (changes before after).map fst ↔ (before.members x ≠ none ∨ after.members x ≠ none) ∧
      (membershipChange (before.members x) (after.members x)).isSome := by
    rw [members_ne_none, members_ne_none, ← mem_append, ← map_append]
    simp [changes, Option.isSome_iff_exists]
  rw [hc]
  unfold membershipChange
  cases before.members x <;> cases after.members x <;> simp

def Depends (before after : Graph) (a b : Id) : Prop := (a, b) ∈ before.edges ∨ (a, b) ∈ after.edges

def Starts (before after : Graph) (changed : Refs) (s : Id) : Prop :=
  s ∈ changed ∨ before.members s ≠ after.members s

def Known (before after : Graph) (changed : Refs) : Prop := ∀ id ∈ changed, id ∈ before.known ∨ id ∈ after.known

section

variable (hb : validate_graph before = .ok before) (ha : validate_graph after = .ok after)
include hb ha

lemma affected_entities_ok (hp : before.project = after.project) :
    affected_entities before after changed = .ok result ↔ changed.length ≤ 100000 ∧ Known before after changed ∧
      closure (before.edges ++ after.edges) (changed ++ (changes before after).map fst) = result := by
  have hi : ∀ {g}, validate_graph g = .ok g → dependency_index g = .ok ⟨g.known, g.edges⟩ := by
    intro g hg
    rw [dependency_index, hg]
    rfl
  have hm : membership_changes before after = .ok (changes before after) := by
    rw [membership_changes, hb, ha]
    exact bind_refuse.mpr ⟨not_not.mpr hp, rfl⟩
  rw [affected_entities, bind_refuse, hi hb, hi ha, hm, not_lt]
  refine and_congr_right fun _ => bind_refuse.trans (and_congr ?_ pure_eq_ok)
  simp only [Known, not_exists, not_and, not_not, imp_iff_not_or]

lemma known_closure (hk : Known before after changed) :
    Known before after (closure (before.edges ++ after.edges) (changed ++ (changes before after).map fst)) := by
  intro x hx
  obtain ⟨s, hs, hx⟩ := mem_closure.mp hx
  induction hx with
  | refl =>
    rcases mem_append.mp hs with hs | hs
    · exact hk s hs
    · by_contra hn
      rw [not_or] at hn
      exact mem_changes.mp hs
        ((not_not.mp (mt known_of_members hn.1)).trans (not_not.mp (mt known_of_members hn.2)).symm)
  | @tail y x _ he ih => exact (mem_append.mp he).imp (known_of_edge hb) (known_of_edge ha)

theorem affected_entities_closure (hp : before.project = after.project) (hk : Known before after changed)
    (hl : changed.length ≤ 100000) :
    ∃ result, affected_entities before after changed = .ok result ∧ result.Pairwise (· < ·) ∧
      (∀ x, x ∈ result ↔ ∃ s, Starts before after changed s ∧ ReflTransGen (Depends before after) s x) ∧
      (∀ changed' result', changed ⊆ changed' → affected_entities before after changed' = .ok result' →
        result ⊆ result') ∧
      (result.length ≤ 100000 → affected_entities before after result = .ok result) := by
  have hmem : ∀ ids x, x ∈ closure (before.edges ++ after.edges) (ids ++ (changes before after).map fst) ↔
      ∃ s, Starts before after ids s ∧ ReflTransGen (Depends before after) s x := by
    intro ids x
    simp only [mem_closure, mem_append, mem_changes]
    rfl
  refine ⟨_, (affected_entities_ok hb ha hp).mpr ⟨hl, hk, rfl⟩, pairwise_closure _ _, hmem changed, ?_, ?_⟩
  · intro changed' result' hs hok
    obtain ⟨-, -, rfl⟩ := (affected_entities_ok hb ha hp).mp hok
    intro x hx
    obtain ⟨s, hst, hx⟩ := (hmem changed x).mp hx
    exact (hmem changed' x).mpr ⟨s, hst.imp_left (hs ·), hx⟩
  · intro hl
    refine (affected_entities_ok hb ha hp).mpr ⟨hl, known_closure hb ha hk, ?_⟩
    refine (pairwise_closure _ _).eq_of_mem_iff (pairwise_closure _ _) fun x => ?_
    rw [hmem, hmem]
    constructor
    · rintro ⟨s, hs | hs, hx⟩
      · obtain ⟨r, hr, hs⟩ := (hmem changed s).mp hs
        exact ⟨r, hr, hs.trans hx⟩
      · exact ⟨s, .inr hs, hx⟩
    · rintro ⟨s, hs, hx⟩
      exact ⟨s, .inl ((hmem changed s).mpr ⟨s, hs, .refl⟩), hx⟩

end

def leafId (kind : String) : Id := "leaf:" ++ kind ++ ":00000000-0000-4000-8000-000000000000"

def design (panels : Refs) (inverter : Option Id) : Graph :=
  ⟨leafId "project", leafId "settings", [], [], [leafId "panel"], [⟨leafId "string", panels, inverter, none⟩],
    [⟨leafId "inverter", none⟩], [], []⟩

def strung : Graph := design [leafId "panel"] none

def wired : Graph := design [] (leafId "inverter")

theorem inverter_affected_by_panel : ∃ result, affected_entities strung wired [leafId "panel"] = .ok result ∧
    leafId "inverter" ∈ result := by
  have hk : Known strung wired [leafId "panel"] := by
    unfold Known
    decide
  obtain ⟨result, hok, -, hmem, -⟩ := affected_entities_closure (rfl : validate_graph strung = .ok strung)
    (rfl : validate_graph wired = .ok wired) rfl hk (by decide)
  have he : Depends strung wired (leafId "panel") (leafId "string") := .inl (by decide)
  exact ⟨result, hok, (hmem _).mpr ⟨_, .inl (mem_singleton.mpr rfl), .tail (.single he) (.inr (by decide))⟩⟩

theorem too_many_changed_ids : validate_graph wired = .ok wired ∧
    Known wired wired (replicate 100001 wired.project) ∧
      affected_entities wired wired (replicate 100001 wired.project) = .error "INVALID_CHANGED_IDS" := by
  refine ⟨rfl, ?_, ?_⟩
  · intro id hid
    rw [eq_of_mem_replicate hid]
    decide
  · rw [affected_entities, length_replicate]
    rfl

end LeafWeb.Solar
