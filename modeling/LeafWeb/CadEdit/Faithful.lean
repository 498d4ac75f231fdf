import LeafWeb.CadEdit.Comparison
import LeafWeb.CadEdit.Removals

namespace LeafWeb.CadEdit

open Lib List Mutations Dict

variable {p : Projection} {e : Entity} {h : String} {g : Geometry}

section

variable (hp : WellFormed p)

include hp

section

variable (he : e ∈ p.entities)
include he

lemma WellFormed.filter_hex : (p.entities.filter fun x => x.hex = e.hex) = [e] := by
  have hg : ∀ l : List Entity, (l.map Entity.hex).Nodup → e ∈ l → (l.filter fun x => x.hex = e.hex) = [e] := by
    intro l
    induction l with
    | nil =>
      intro _ hm
      cases hm
    | cons x l ih =>
      intro hnd hm
      rw [map_cons, nodup_cons] at hnd
      rcases mem_cons.mp hm with rfl | hm
      · rw [filter_cons_of_pos (by simp), filter_eq_nil_iff.mpr]
        intro y hy hyx
        exact hnd.1 (mem_map.mpr ⟨y, hy, of_decide_eq_true hyx⟩)
      · have hne : x.hex ≠ e.hex := fun hx => hnd.1 (mem_map.mpr ⟨e, hm, hx.symm⟩)
        rw [filter_cons_of_neg (by simpa using hne), ih hnd.2 hm]
  exact hg p.entities hp.distinct he

lemma WellFormed.index (hg : geometryOf e = some g) : p.index.get e.hex = some g := by
  rw [get_indexByHandle]
  refine ⟨hp.named e he, ?_⟩
  rw [readings, hp.filter_hex he, filterMap_cons, hg]
  rfl

lemma WellFormed.exists_geometry : ∃ g, geometryOf e = some g := Option.ne_none_iff_exists'.mp (hp.readable e he)

lemma WellFormed.drawnAt (hg : geometryOf e = some g) : drawnAt p.entities e.hex = some (drawnAs e g) := by
  rw [CadEdit.drawnAt, ← head?_filter, hp.filter_hex he, head?_cons, Option.bind_some, drawn, hg, Option.map_some]

end

lemma WellFormed.isSome_index_iff : (p.index.get h).isSome ↔ p.has h := by
  constructor
  · intro hs
    obtain ⟨g, hg⟩ := Option.isSome_iff_exists.mp hs
    rw [get_indexByHandle] at hg
    exact exists_of_readings (by rw [hg.2]; simp)
  · rintro ⟨e, he, rfl⟩
    obtain ⟨g, hg⟩ := hp.exists_geometry he
    rw [hp.index he hg]
    rfl

lemma WellFormed.index_none (hh : ¬p.has h) : p.index.get h = none := by
  rw [← Option.not_isSome_iff_eq_none, hp.isSome_index_iff]
  exact hh

end

lemma drawnAt_none (hh : ¬p.has h) : drawnAt p.entities h = none := by
  have hf : (p.entities.find? fun e => e.hex = h) = none := by
    rw [find?_eq_none]
    intro e he hx
    exact hh ⟨e, he, of_decide_eq_true hx⟩
  rw [drawnAt, hf, Option.bind_none]

variable {t : JsText} {committed current : Projection} {m : Mutations}
  {look : String → List Point → String → LeaderLook} {a b : List String}

section

variable (ho : Origin t committed current m) (hw : WellFormed committed) (hn : WellFormed current)
  {now was : Geometry}

include ho hw hn

lemma removed_iff : h ∈ m.removed ↔ committed.has h ∧ ¬current.has h := by
  rw [ho.mem_removed, ← hw.isSome_index_iff, ← hn.isSome_index_iff, Option.isSome_iff_exists,
    Option.not_isSome_iff_eq_none]

lemma added_none (hh : committed.has h ∨ ¬current.has h) : (m.added.find? fun r => r.handle = h) = none := by
  rw [find?_eq_none]
  rintro r hr hk
  have hk : r.handle = h := by simpa using hk
  obtain ⟨now, hnow, hin⟩ := (mem_added_entityDraft t).mp (ho.added.mem_iff.mp hr)
  rw [hk] at hnow hin
  rcases hh with hh | hh
  · obtain ⟨was, hwas⟩ := Option.isSome_iff_exists.mp (hw.isSome_index_iff.mpr hh)
    simp [addEntity, hwas, empty] at hin
  · cases (hn.index_none hh).symm.trans hnow

lemma added_some (he : e ∈ current.entities) (hg : geometryOf e = some g) (hh : ¬committed.has e.hex) :
    (m.added.find? fun r => r.handle = e.hex) = some (addedRecord t e.hex g) ∧
      (sameDrawn t ((addedRecord t e.hex g).drawn look) (drawnAs e g) = true ↔ Addable look t e) := by
  have hb := hw.index_none hh
  have ha := hn.index he hg
  obtain ⟨hl, hi⟩ := addedRecord_saves hg hb (accepted_addEntity t ho.accepted ha)
  refine ⟨?_, hi⟩
  have hm : ∀ r : AddedRecord, r.handle = e.hex → (r ∈ m.added ↔ r ∈ [addedRecord t e.hex g]) := by
    intro r hr
    rw [ho.added.mem_iff, mem_added_entityDraft, hr, ha]
    simp [hl]
  rw [find?_eq_of_mem hm le_rfl]
  simp [Within.addedRecord_handle]

lemma edit_compared {e' : Entity} (he : e ∈ committed.entities) (he' : e' ∈ current.entities)
    (hx : e.hex = e'.hex) (hg : geometryOf e = some was) (hg' : geometryOf e' = some now) :
    sameDrawn t (edit m e.hex (drawnAs e was)) (drawnAs e' now) = true ↔ Compared t e e' := by
  have hb := hw.index he hg
  have haf : current.index.get e.hex = some now := hx ▸ hn.index he' hg'
  have hacc : (compareEntity t e.hex was now).Accepted := by
    have hacc := accepted_removeOrCompare t ho.accepted hb
    rwa [removeOrCompare, haf] at hacc
  have hkp : e.hex ∉ m.removed := by
    intro hr
    exact ((removed_iff ho hw hn).mp hr).2 ⟨e', he', hx.symm⟩
  have hm : ∀ {α : Type} (p : Part α) (a : α), p.key a = e.hex →
      (a ∈ p.pick m ↔ a ∈ p.pick (compareEntity t e.hex was now).ops) := by
    intro α p a hk
    have hl : a ∈ p.pick (planEntities t committed current).ops ↔
        a ∈ p.pick (compareEntity t e.hex was now).ops := by
      rw [Part.mem_entityDraft, hk, hb]
      simp [removeOrCompare, haf]
    rw [← hl]
    refine ⟨fun ha => (ho.parts p ha).resolve_right ?_, ho.pushed p⟩
    rw [hk]
    intro hin
    exact hkp (ho.pushed Part.removed hin)
  rw [edit_eq_of_mem hm (single_compareEntity hacc)]
  exact compareEntity_saves hg hg' hacc

lemma handles_saved_iff :
    (∀ h, sameOption (sameDrawn t) (applied m h look committed) (drawnAt current.entities h) = true) ↔
      (∀ e ∈ current.entities, ¬committed.has e.hex → Addable look t e) ∧
      ∀ e ∈ committed.entities, ∀ e' ∈ current.entities, e.hex = e'.hex → Compared t e e' := by
  have hnew : ∀ e ∈ current.entities, ¬committed.has e.hex →
      (sameOption (sameDrawn t) (applied m e.hex look committed) (drawnAt current.entities e.hex) = true ↔
        Addable look t e) := by
    intro e he hh
    obtain ⟨g, hg⟩ := hn.exists_geometry he
    obtain ⟨hf, hi⟩ := added_some ho hw hn he hg hh
    have hrem : e.hex ∉ m.removed := fun hr => hh ((removed_iff ho hw hn).mp hr).1
    rw [applied, if_neg hrem, hf, hn.drawnAt he hg]
    exact hi
  have hb : ∀ e ∈ committed.entities, ∀ e' ∈ current.entities, e.hex = e'.hex →
      (sameOption (sameDrawn t) (applied m e.hex look committed) (drawnAt current.entities e.hex) = true ↔
        Compared t e e') := by
    intro e he e' he' hx
    obtain ⟨was, hg⟩ := hw.exists_geometry he
    obtain ⟨now, hg'⟩ := hn.exists_geometry he'
    have hrem : e.hex ∉ m.removed := fun hr =>
      ((removed_iff ho hw hn).mp hr).2 ⟨e', he', hx.symm⟩
    have hnow : drawnAt current.entities e.hex = some (drawnAs e' now) := hx ▸ hn.drawnAt he' hg'
    rw [applied, if_neg hrem, added_none ho hw hn (.inl ⟨e, he, rfl⟩), hw.drawnAt he hg, hnow]
    exact edit_compared ho hw hn he he' hx hg hg'
  constructor
  · intro ha
    refine ⟨fun e he hh => (hnew e he hh).mp (ha _), fun e he e' he' hx => ?_⟩
    exact (hb e he e' he' hx).mp (ha _)
  rintro ⟨hadd, hcmp⟩ h
  by_cases hc : committed.has h
  · obtain ⟨e, he, rfl⟩ := hc
    by_cases hx : current.has e.hex
    · obtain ⟨e', he', hx⟩ := hx
      exact (hb e he e' he' hx.symm).mpr (hcmp e he e' he' hx.symm)
    · rw [applied, if_pos ((removed_iff ho hw hn).mpr ⟨⟨e, he, rfl⟩, hx⟩), drawnAt_none hx]
      rfl
  · by_cases hx : current.has h
    · obtain ⟨e, he, rfl⟩ := hx
      exact (hnew e he hc).mpr (hadd e he hc)
    · have hrem : h ∉ m.removed := fun hr => hc ((removed_iff ho hw hn).mp hr).1
      rw [applied, if_neg hrem, added_none ho hw hn (.inr hx), drawnAt_none hc, drawnAt_none hx]
      rfl

end

lemma nodup_eraseDups : ∀ l : List String, l.eraseDups.Nodup
  | [] => nodup_nil
  | a :: l => by
    rw [eraseDups_cons, nodup_cons]
    exact ⟨by simp, nodup_eraseDups _⟩
  termination_by l => l.length
  decreasing_by exact Nat.lt_succ_of_le (length_filter_le _ l)

lemma nodup_memberHandles (g : Group) : (memberHandles g).Nodup := nodup_eraseDups _

lemma sameMembers_iff (ha : a.Nodup) (hb : b.Nodup) : sameMembers a b = true ↔ ∀ x, x ∈ a ↔ x ∈ b := by
  simp only [sameMembers, Bool.and_eq_true, decide_eq_true_eq, all_eq_true]
  constructor
  · rintro ⟨hl, hs⟩ x
    have hpr : a.Perm b := (subperm_of_subset ha hs).perm_of_length_le (le_of_eq hl.symm)
    exact hpr.mem_iff
  · intro hi
    have hpr := (perm_ext_iff_of_nodup ha hb).mpr hi
    exact ⟨hpr.length_eq, fun x hx => (hi x).mp hx⟩

variable {g g' : Group} {x name : String}

section

variable (ho : Origin t committed current m) (hw : WellFormed committed) (hn : WellFormed current)

section

include hw hn

lemma mem_livingMembers :
    x ∈ livingMembers committed.index current.index g ↔ x ∈ memberHandles g ∧
      (committed.has x → current.has x) := by
  have hno : (committed.index.get x).isNone = true ↔ ¬committed.has x := by
    rw [← hw.isSome_index_iff]
    simp
  rw [livingMembers, mem_filter, Bool.or_eq_true, hn.isSome_index_iff, hno]
  tauto

omit hw in
lemma mem_survivingMembers : x ∈ survivingMembers current.index g ↔ x ∈ memberHandles g ∧ current.has x := by
  rw [survivingMembers, mem_filter, hn.isSome_index_iff]

lemma keptGroup_iff (hg' : (current.groupsByName t).get name = some g') :
    keptGroup committed.index current.index (current.groupsByName t) name g = true ↔
      ∀ x, (x ∈ memberHandles g ∧ current.has x) ↔ (x ∈ memberHandles g' ∧ (committed.has x → current.has x)) := by
  have hnd : (survivingMembers current.index g).Nodup := (nodup_memberHandles g).filter _
  have hnd' : (livingMembers committed.index current.index g').Nodup := (nodup_memberHandles g').filter _
  rw [keptGroup, hg']
  rw [sameMembers_iff hnd hnd']
  apply forall_congr'
  intro x
  have h1 : x ∈ survivingMembers current.index g ↔ _ := mem_survivingMembers hn
  have h2 : x ∈ livingMembers committed.index current.index g' ↔ _ := mem_livingMembers hw hn
  exact iff_congr h1 h2

end

section

include ho

variable {members : List String}

lemma mem_removedGroups :
    name ∈ m.removedGroups ↔ ∃ g, (committed.groupsByName t).get name = some g ∧
      keptGroup committed.index current.index (current.groupsByName t) name g = false := by
  rw [ho.removedGroups.mem_iff, removedGroups, mem_map]
  constructor
  · rintro ⟨⟨n, g⟩, hr, rfl⟩
    rw [mem_filter] at hr
    exact ⟨g, get_some.mpr hr.1, by simpa using hr.2⟩
  · rintro ⟨g, hg, hk⟩
    exact ⟨(name, g), mem_filter.mpr ⟨get_some.mp hg, by simpa using hk⟩, rfl⟩

abbrev planMembers (t : JsText) (committed current : Projection) (name : String) (g : Group) :
    Option (List String) :=
  newMembers committed.index current.index (committed.groupsByName t) (current.groupsByName t) name g

omit ho in
lemma mem_planGroups {x : String × List String} :
    x ∈ (planGroups t committed current).filterMap Prod.fst ↔
      ∃ g, (current.groupsByName t).get x.1 = some g ∧
        planMembers t committed current x.1 g = some x.2 ∧ 2 ≤ x.2.length := by
  simp only [mem_filterMap, addGroups, mem_map, Prod.exists]
  constructor
  · rintro ⟨o, d, ⟨name, g, hr, ha⟩, rfl⟩
    unfold addGroup at ha
    split at ha
    · cases ha
    rename_i members hm
    split_ifs at ha with hl
    · cases ha
    · obtain rfl := Option.some.inj (Prod.mk.inj ha).1
      exact ⟨g, get_some.mpr hr, hm, Nat.le_of_not_lt hl⟩
  · rintro ⟨g, hg, hm, hl⟩
    refine ⟨some x, .empty, ⟨x.1, g, get_some.mp hg, ?_⟩, rfl⟩
    have hm' : newMembers committed.index current.index (committed.groupsByName t)
      (current.groupsByName t) x.1 g = some x.2 := hm
    simp only [addGroup, hm']
    rw [if_neg (by omega)]

lemma two_members (hg : (current.groupsByName t).get name = some g)
    (hm : planMembers t committed current name g = some members) : 2 ≤ members.length := by
  by_contra hl
  have ha := ho.grown (addGroup committed.index current.index (committed.groupsByName t)
    (current.groupsByName t) (name, g)) (mem_map_of_mem (get_some.mp hg))
  have hm' : newMembers committed.index current.index (committed.groupsByName t)
    (current.groupsByName t) name g = some members := hm
  simp only [addGroup, hm'] at ha
  rw [if_pos (by omega)] at ha
  exact Draft.not_accepted_refuse ha

omit ho in
lemma memberOf_groupMember {gm : GroupMember} (hgm : groupMember committed.index m.added x = some gm) :
    memberOf m gm = x := by
  unfold groupMember at hgm
  split_ifs at hgm
  · cases hgm
    rfl
  obtain ⟨i, hi, rfl⟩ := Option.map_eq_some_iff.mp hgm
  rw [ordinal, findIdx?_eq_some_iff_getElem] at hi
  obtain ⟨hlt, hx, -⟩ := hi
  simp only [memberOf, getElem?_eq_getElem hlt]
  simpa using hx

omit ho in
lemma map_memberOf :
    ∀ {gms : List GroupMember}, members.mapM (groupMember committed.index m.added) = some gms →
      gms.map (memberOf m) = members := by
  induction members with
  | nil =>
    intro gms hg
    cases hg
    rfl
  | cons x members ih =>
    intro gms hg
    simp only [mapM_cons, Option.bind_eq_bind, Option.bind_eq_some_iff] at hg
    obtain ⟨gm, hgm, rest, hr, hout⟩ := hg
    cases hout
    rw [map_cons, memberOf_groupMember hgm, ih hr]

lemma pushGroup_members (hin : (name, members) ∈ (planGroups t committed current).filterMap Prod.fst) :
    ∃ g, (pushGroup committed.index m.added (name, members)).ops.addedGroups = [g] ∧
      g.name = name ∧ g.members.map (memberOf m) = members := by
  have ha := ho.members _ hin
  unfold pushGroup at ha ⊢
  split
  next gms hg =>
    exact ⟨⟨name, gms⟩, rfl, rfl, map_memberOf hg⟩
  rename_i hg
  rw [hg] at ha
  exact (Draft.not_accepted_refuse ha).elim

lemma addedGroup_some (hg : (current.groupsByName t).get name = some g)
    (hm : planMembers t committed current name g = some members) :
    ∃ added, (m.addedGroups.find? fun x => x.name = name) = some added ∧
      added.members.map (memberOf m) = members := by
  have hin : (name, members) ∈ (planGroups t committed current).filterMap Prod.fst :=
    mem_planGroups.mpr ⟨g, hg, hm, two_members ho hg hm⟩
  obtain ⟨added, hops, hnm, hmb⟩ := pushGroup_members ho hin
  refine ⟨added, ?_, hmb⟩
  have hmem : ∀ x : AddedGroup, x.name = name → (x ∈ m.addedGroups ↔ x ∈ [added]) := by
    intro x hx
    rw [ho.addedGroups.mem_iff, mem_flatMap]
    constructor
    · rintro ⟨⟨n, ms⟩, hn, hxin⟩
      obtain ⟨other, hot, hnm', -⟩ := pushGroup_members ho hn
      rw [hot, mem_singleton] at hxin
      have hnn : n = name := by rw [← hnm', ← hxin, hx]
      subst hnn
      obtain ⟨g', hg', hm', -⟩ := mem_planGroups.mp hn
      cases hg.symm.trans hg'
      cases hm.symm.trans hm'
      rw [hxin, ← hops, hot]
      exact mem_singleton_self other
    · intro hxin
      exact ⟨_, hin, hops ▸ hxin⟩
  rw [find?_eq_of_mem hmem le_rfl]
  simp [hnm]

lemma addedGroup_none
    (hm : ∀ g, (current.groupsByName t).get name = some g → planMembers t committed current name g = none) :
    (m.addedGroups.find? fun x => x.name = name) = none := by
  rw [find?_eq_none]
  intro x hx hk
  have hk : x.name = name := by simpa using hk
  rw [ho.addedGroups.mem_iff, mem_flatMap] at hx
  obtain ⟨⟨n, ms⟩, hn, hxin⟩ := hx
  obtain ⟨other, hot, hnm', -⟩ := pushGroup_members ho hn
  rw [hot, mem_singleton] at hxin
  have hnn : n = name := by rw [← hnm', ← hxin, hk]
  subst hnn
  obtain ⟨g, hg, hg', -⟩ := mem_planGroups.mp hn
  cases (hm g hg).symm.trans hg'

lemma planMembers_some (hnew : (committed.groupsByName t).get name = none ∨ name ∈ m.removedGroups) :
    planMembers t committed current name g = some (livingMembers committed.index current.index g) := by
  unfold planMembers newMembers
  rw [if_pos]
  rw [Option.isNone_iff_eq_none, ← ho.removedGroups.mem_iff]
  exact hnew

end

section

include ho hw hn

lemma sameGroup_added (hg : (current.groupsByName t).get name = some g)
    (hnew : (committed.groupsByName t).get name = none ∨ name ∈ m.removedGroups) :
    sameGroup (appliedGroup m t committed name)
        (((current.groupsByName t).get name).map memberHandles) ↔
      ∀ x ∈ memberHandles g, committed.has x → current.has x := by
  obtain ⟨added, hf, hm⟩ := addedGroup_some ho hg (planMembers_some ho hnew)
  rw [appliedGroup, hf, hg]
  simp only [hm]
  constructor
  · intro ha x hx
    exact ((mem_livingMembers hw hn).mp ((ha x).mpr hx)).2
  intro ha x
  rw [mem_livingMembers hw hn]
  exact ⟨fun hx => hx.1, fun hx => ⟨hx, ha x hx⟩⟩

lemma sameGroup_kept (hg : (committed.groupsByName t).get name = some g)
    (hg' : (current.groupsByName t).get name = some g') (hk : name ∉ m.removedGroups) :
    sameGroup (appliedGroup m t committed name)
        (((current.groupsByName t).get name).map memberHandles) ↔
      ∀ x, (x ∈ memberHandles g ∧ (committed.has x → current.has x)) ↔ x ∈ memberHandles g' := by
  have hno := addedGroup_none ho fun g'' _ => by
    unfold planMembers newMembers
    rw [if_neg]
    rw [← ho.removedGroups.mem_iff, hg]
    simp [hk]
  rw [appliedGroup, hno, hg', hg, if_neg hk]
  simp only [Option.map_some, sameGroup, mem_filter, decide_eq_true_eq]
  apply forall_congr'
  intro x
  rw [removed_iff ho hw hn]
  apply iff_congr _ Iff.rfl
  tauto

lemma groups_saved_iff :
    (∀ name, sameGroup (appliedGroup m t committed name) (((current.groupsByName t).get name).map memberHandles)) ↔
    GroupsNamed t committed current := by
  constructor
  · intro ha
    have hl : ∀ name g, (current.groupsByName t).get name = some g → ∀ x ∈ memberHandles g,
        committed.has x → current.has x := by
      intro name g' hg'
      cases hg : (committed.groupsByName t).get name with
      | none => exact (sameGroup_added ho hw hn hg' (.inl hg)).mp (ha name)
      | some g =>
        by_cases hr : name ∈ m.removedGroups
        · exact (sameGroup_added ho hw hn hg' (.inr hr)).mp (ha name)
        intro x hx
        have hx' := (sameGroup_kept ho hw hn hg hg' hr).mp (ha name)
        exact ((hx' x).mpr hx).2
    refine ⟨hl, ?_⟩
    intro name g g' hg hg' hs x hx
    by_contra hnot
    rw [not_or] at hnot
    have hr : name ∉ m.removedGroups := by
      rw [mem_removedGroups ho]
      rintro ⟨g₀, hg₀, hk⟩
      cases hg.symm.trans hg₀
      have hkp : keptGroup committed.index current.index (current.groupsByName t) name g =
          true := by
        rw [keptGroup_iff hw hn hg']
        intro y
        rw [← hs y]
        exact ⟨fun hy => ⟨hy, hl name g' hg' y hy⟩, fun hy => hy.1⟩
      cases hkp.symm.trans hk
    have hx' := (sameGroup_kept ho hw hn hg hg' hr).mp (ha name)
    have hin : x ∈ memberHandles g' := (hx' x).mp ⟨hx, fun hc => (hnot.1 hc).elim⟩
    exact hnot.2 ((hs x).mp hin).2
  · rintro ⟨hl, hnm⟩ name
    cases hg' : (current.groupsByName t).get name with
    | none =>
      have hno : (m.addedGroups.find? fun x => x.name = name) = none := by
        apply addedGroup_none ho
        intro g hg
        cases hg'.symm.trans hg
      rw [appliedGroup, hno]
      cases hg : (committed.groupsByName t).get name with
      | none =>
        simp only [Option.map_none, ite_self]
        trivial
      | some g =>
        have hr : name ∈ m.removedGroups := by
          refine (mem_removedGroups ho).mpr ⟨g, hg, ?_⟩
          rw [keptGroup, hg']
        simp only [if_pos hr]
        trivial
    | some g' =>
      rw [← hg']
      cases hg : (committed.groupsByName t).get name with
      | none => exact (sameGroup_added ho hw hn hg' (.inl hg)).mpr (hl name g' hg')
      | some g =>
        by_cases hr : name ∈ m.removedGroups
        · exact (sameGroup_added ho hw hn hg' (.inr hr)).mpr (hl name g' hg')
        rw [sameGroup_kept ho hw hn hg hg' hr]
        have hkp : keptGroup committed.index current.index (current.groupsByName t) name g =
            true := by
          by_contra hk
          exact hr ((mem_removedGroups ho).mpr ⟨g, hg, by simpa using hk⟩)
        rw [keptGroup_iff hw hn hg'] at hkp
        have hs : ∀ x, x ∈ memberHandles g' ↔ x ∈ memberHandles g ∧ current.has x := by
          intro x
          rw [hkp x]
          exact ⟨fun hx => ⟨hx, hl name g' hg' x hx⟩, fun hx => hx.1⟩
        intro x
        rw [hs x]
        constructor
        · rintro ⟨hx, hi⟩
          exact ⟨hx, (hnm name g g' hg hg' hs x hx).elim hi id⟩
        · rintro ⟨hx, hc⟩
          exact ⟨hx, fun _ => hc⟩

end

end

def redCircle : Entity := { circleEntity "A1" 1 with trueColor := some [some 255, some 0, some 0] }

end LeafWeb.CadEdit
