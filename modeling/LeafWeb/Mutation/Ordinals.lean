import LeafWeb.Mutation.Again

namespace LeafWeb.Mutation

open Lib List Option Prod RawAdded

variable {A : Arith} {s : Setting} {raws : List RawAdded} {placed : List Placed}

def Becomes (s : Setting) (raw : RawAdded) (a : Added) : Prop :=
  (∃ kind layer, Adds s raw a.toPlaced kind layer) ∧ styleOf (knownLinetypes s.intake) raw = .ok a.style

variable {raw : RawAdded} {a : Added}

lemma Becomes.again (h : Becomes s raw a) : Becomes s a.raw a ↔ AddedSettled s.arith s.intake raw := by
  obtain ⟨⟨kind, layer, ha⟩, hs⟩ := h
  exact adds_again ha hs

lemma lookup_of_mem {K V : Type} [BEq K] [LawfulBEq K] {l : List (K × V)} (hl : (l.map fst).Nodup)
    {k : K} {v : V} (h : (k, v) ∈ l) : l.lookup k = some v := by
  induction l with
  | nil => simp at h
  | cons e l ih =>
    obtain ⟨k', v'⟩ := e
    rw [map_cons, nodup_cons] at hl
    rcases mem_cons.mp h with heq | hm
    · obtain ⟨rfl, rfl⟩ := mk.inj heq
      simp
    · have hne : k ≠ k' := by
        rintro rfl
        exact hl.1 (mem_map.mpr ⟨_, hm, rfl⟩)
      rw [lookup_cons, beq_false_of_ne hne]
      exact ih hl.2 hm

lemma handles_eq (h : Forall₂ (fun r p => ∃ kind layer, Adds s r p kind layer) raws placed) :
    raws.map handle = placed.map fun p => some p.handle := by
  apply map_eq_of_forall₂ h
  rintro r p ⟨kind, layer, ha⟩
  exact ha.handle

lemma nodup_some_handles (h : (placed.map Placed.handle).Nodup) : (placed.map fun p => some p.handle).Nodup := by
  have hm : (placed.map fun p => some p.handle) = (placed.map Placed.handle).map some := by simp
  rw [hm]
  exact h.map (some_injective _)

@[simp] lemma sortAdded_sortAdded : sortAdded A (sortAdded A placed) = sortAdded A placed := sortOn_sortOn

variable {i n : ℕ} {b : RawBlockDef}

section

variable (h : raws.map handle = placed.map fun p => some p.handle)
include h

lemma getElem_ordinalOf (hn : (placed.map Placed.handle).Nodup) (hi : i < placed.length) :
    (sortAdded A placed)[ordinalOf (sortAdded A placed) raws i]? = some (placed.get ⟨i, hi⟩) := by
  have hlen : raws.length = placed.length := by
    have hl := congrArg length h
    rwa [length_map, length_map] at hl
  have hr : raws[i]?.bind handle = some (placed.get ⟨i, hi⟩).handle := by
    have hg := congrArg (fun l => l[i]?) h
    simp only [getElem?_map, getElem?_eq_getElem (hlen ▸ hi), getElem?_eq_getElem hi, map_some, some.injEq] at hg
    rw [getElem?_eq_getElem (hlen ▸ hi), bind_some, hg]
    rfl
  have hm : placed.get ⟨i, hi⟩ ∈ sortAdded A placed := mem_sortOn.mpr (get_mem _ _)
  have hlt : ordinalOf (sortAdded A placed) raws i < (sortAdded A placed).length := by
    rw [ordinalOf, findIdx_lt_length]
    exact ⟨_, hm, by simp [hr]⟩
  have hf : decide (raws[i]?.bind handle =
      some ((sortAdded A placed)[ordinalOf (sortAdded A placed) raws i]).handle) = true :=
    findIdx_getElem (w := hlt)
  rw [hr, decide_eq_true_eq, some.injEq] at hf
  rw [getElem?_eq_getElem hlt]
  congr 1
  exact inj_on_of_nodup_map hn (mem_sortOn.mp (getElem_mem hlt)) (get_mem _ _) hf.symm

lemma ordinalOf_lt (hn : (placed.map Placed.handle).Nodup) (hi : i < placed.length) :
    ordinalOf (sortAdded A placed) raws i < placed.length := by
  have hg := getElem_ordinalOf (A := A) h hn hi
  have hlt := (List.getElem?_eq_some_iff.mp hg).1
  rwa [sortAdded, length_sortOn] at hlt

lemma ordinalOf_sorted (hn : (placed.map Placed.handle).Nodup) (hs : sortAdded A placed = placed)
    (hi : i < placed.length) : ordinalOf placed raws i = i := by
  have hg := getElem_ordinalOf (A := A) h hn hi
  rw [hs] at hg
  obtain ⟨hlt, heq⟩ := List.getElem?_eq_some_iff.mp hg
  have hnd : placed.Nodup := hn.of_map _
  exact (Nodup.getElem_inj_iff hnd).mp heq

end

structure StandsFor (b : RawBlockDef) (raw : RawAdded) : Prop where
  kind : raw.kind = some "INSERT"
  name : raw.name = some b.name
  layer : raw.layer = some "0"
  pt : raw.pt = some b.base
  rot : raw.rot = some 0
  scale : raw.scale = some [1, 1, 1]

lemma matchingInsert_eq_ok :
    matchingInsert raws b = .ok n ↔
      b.insert = n ∧ raws.countP (isInsertOf b.name) = 1 ∧ ∃ raw, raws[n]? = some raw ∧ StandsFor b raw := by
  simp only [matchingInsert, bind_refuse, pure_eq_ok, not_not, not_or]
  constructor
  · rintro ⟨⟨hlow, hh⟩, ⟨hc, hk, hnm, hl, hpt, hr, hs⟩, rfl⟩
    have hlt : b.insert.toNat < raws.length := by omega
    rw [getElem?_eq_getElem hlt, getD_some] at hk hnm hl hpt hr hs
    exact ⟨by omega, hc, _, getElem?_eq_getElem hlt, hk, hnm, hl, hpt, hr, hs⟩
  · rintro ⟨hi, hc, raw, hg, h⟩
    have hlt := (List.getElem?_eq_some_iff.mp hg).1
    have hn : b.insert.toNat = n := by omega
    rw [hn, hg, getD_some]
    exact ⟨⟨by omega, by omega⟩, ⟨hc, h.kind, h.name, h.layer, h.pt, h.rot, h.scale⟩, rfl⟩

section

variable (h : Becomes s raw a)
include h

lemma Becomes.insert (hk : raw.kind = some "INSERT") :
    ∃ name pt rot scale, a.shape = .insert name (pt.rounded 3) (wrapped rot) scale ∧
      Inserts s.intake s.declared a.handle raw name pt rot scale := by
  obtain ⟨⟨kind, layer, ha⟩, -⟩ := h
  obtain rfl : kind = .insert := (ofKind_name ha.ofKind).2.2.2.mp hk
  obtain ⟨name, pt, rot, scale, hs, hi, -⟩ := insertShape_eq_ok.mp ha.shape
  exact ⟨name, pt, rot, scale, hs, hi⟩

lemma Becomes.kind_insert : a.raw.kind = some "INSERT" ↔ raw.kind = some "INSERT" := by
  obtain ⟨⟨kind, layer, ha⟩, -⟩ := h
  rw [(ofKind_name ha.ofKind).2.2.2, ← kind_of_shapeOf ha.shape]
  exact (ofKind_name (ofName_raw a.shape)).2.2.2

lemma Becomes.isInsertOf (name : String) : isInsertOf name a.raw = isInsertOf name raw := by
  by_cases hkn : raw.kind = some "INSERT"
  · obtain ⟨named, pt, rot, scale, hs, hi⟩ := h.insert hkn
    have hr : a.raw.name = raw.name := by
      rw [hi.named.1]
      simp [Added.raw, hs, Shape.raw]
    rw [Mutation.isInsertOf, Mutation.isInsertOf, hr, hkn, h.kind_insert.mpr hkn]
  · have hkn' : a.raw.kind ≠ some "INSERT" := fun hk => hkn (h.kind_insert.mp hk)
    simp [Mutation.isInsertOf, hkn, hkn']

lemma Becomes.layer_zero (hl : raw.layer = some "0") : a.layer = "0" := by
  obtain ⟨⟨kind, layer, ha⟩, -⟩ := h
  obtain rfl := mem_unique ha.onLayer hl
  have hc : canonicalizeLayer "0" s.intake.layers = "0" := by
    unfold canonicalizeLayer
    cases hs : spelling (s.intake.layers.getD []) "0" with
    | none => rfl
    | some spelt => exact eq_zero_of_lowerText (by simpa using find?_some hs)
  have hp := ha.placed
  cases kind <;> simpa [layerFor, hc] using hp

lemma Becomes.standsFor {p : Pt} (hb : StandsFor b raw) (hbs : point3 (some b.base) "" = .ok p) (k : ℤ) :
    StandsFor { b with base := (p.rounded 3).raw, insert := k } a.raw := by
  obtain ⟨name, pt, rot, scale, hs, hi⟩ := h.insert hb.kind
  obtain rfl : name = b.name := mem_unique hi.named.1 hb.name
  obtain rfl : rot = 0 := mem_unique hi.turned hb.rot
  have hpt : pt = p := by
    have hp := hi.point
    rw [hb.pt, hbs] at hp
    exact (Except.ok.inj hp).symm
  have hsl : scale.raw = [1, 1, 1] := by
    have hsc := hi.scaled
    rw [hb.scale, threeScales_eq_ok] at hsc
    obtain ⟨q, hq, -, rfl⟩ := hsc
    simp only [Pt.raw, some.injEq, cons.injEq, and_true] at hq
    obtain ⟨hx, hy, hz⟩ := hq
    have ho : roundTo 4 1 = 1 := by
      have hd := roundTo_div 4 10000
      norm_num at hd
      exact hd
    simp [Pt.raw, Pt.rounded, ← hx, ← hy, ← hz, ho]
  have hzr : wrapped 0 = 0 := by norm_num [wrapped, floorMod]
  refine ⟨h.kind_insert.mpr hb.kind, ?_, ?_, ?_, ?_, ?_⟩
  · simp [Added.raw, hs, Shape.raw]
  · simp [Added.raw, h.layer_zero hb.layer]
  · simp [Added.raw, hs, Shape.raw, hpt]
  · simp [Added.raw, hs, Shape.raw, hzr]
  · simp [Added.raw, hs, Shape.raw, hsl]

end

variable {intake : Intake} {flags : Flags} {index : Index} {blockDefs : List BlockDef} {raw : Raw} {p : Parts}

section

variable (h : Checks A intake flags index blockDefs raw p)
include h

lemma Checks.becomes :
    Forall₂ (Becomes ⟨A, intake, flags, index, blockDefs.map BlockDef.name⟩) raw.added
      (p.placed.map (styled p.styles)) := by
  obtain ⟨hp, hd⟩ := h.placed
  have ha := stylesOf_eq_ok.mp h.styles
  have hk : raw.added.map handle = p.styles.map fst := map_eq_of_forall₂ ha fun _ _ hr => hr.1
  have hn : (p.styles.map fst).Nodup := by
    rw [← hk, handles_eq hp]
    exact nodup_some_handles hd
  rw [forall₂_map_right_iff, forall₂_iff_get]
  refine ⟨hp.length_eq, ?_⟩
  intro i hi hi'
  have hi'' : i < p.styles.length := by rwa [← ha.length_eq]
  obtain ⟨kind, layer, hadd⟩ := hp.get hi hi'
  obtain ⟨hh, hs⟩ := ha.get hi hi''
  have hl : p.styles.lookup (some (p.placed.get ⟨i, hi'⟩).handle) = some (p.styles.get ⟨i, hi''⟩).2 := by
    apply lookup_of_mem hn
    rw [← hadd.handle, hh]
    exact get_mem _ _
  refine ⟨⟨kind, layer, hadd⟩, ?_⟩
  rw [styled, hl]
  exact hs

lemma Checks.mem_added (ha : a ∈ (p.canonical A index blockDefs raw).added) :
    ∃ r ∈ raw.added, Becomes ⟨A, intake, flags, index, blockDefs.map BlockDef.name⟩ r a := by
  obtain ⟨q, hq, rfl⟩ := mem_map.mp ha
  have hm : styled p.styles q ∈ p.placed.map (styled p.styles) := mem_map_of_mem (mem_sortOn.mp hq)
  obtain ⟨i, hi, hg⟩ := mem_iff_getElem.mp hm
  have hi' : i < raw.added.length := by rwa [h.becomes.length_eq]
  have hb := h.becomes.get hi' hi
  rw [get_eq_getElem, get_eq_getElem, hg] at hb
  exact ⟨_, getElem_mem hi', hb⟩

end

end LeafWeb.Mutation
