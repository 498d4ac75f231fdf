import LeafWeb.CadEdit.PlanParts
import LeafWeb.Lib.Text

namespace LeafWeb.CadEdit

open Lib List

variable (t : JsText) {committed current : Projection} {m : Mutations} {h : String}

lemma exists_of_readings {es : List Entity} (hr : readings es h ≠ []) : ∃ e ∈ es, e.hex = h := by
  obtain ⟨g, hg⟩ := exists_mem_of_ne_nil _ hr
  obtain ⟨e, he, -⟩ := mem_filterMap.mp hg
  rw [mem_filter] at he
  exact ⟨e, he.1, of_decide_eq_true he.2⟩

lemma isSome_index {p : Projection} :
    (∃ g, p.index.get h = some g) ↔ h ≠ "" ∧ (readings p.entities h).length = 1 := by
  simp only [get_indexByHandle, length_eq_one_iff]
  constructor
  · rintro ⟨g, hne, hg⟩
    exact ⟨hne, g, hg⟩
  · rintro ⟨hne, g, hg⟩
    exact ⟨g, hne, hg⟩

theorem removed_handles_gone_iff (h : diffPlan t committed current = .ok m) :
    (∀ x ∈ m.removed, (∃ e ∈ committed.entities, e.hex = x) ∧ ∀ e ∈ current.entities, e.hex ≠ x) ↔
    ∀ e ∈ current.entities, e.hex ≠ "" → (readings committed.entities e.hex).length = 1 →
      (readings current.entities e.hex).length = 1 := by
  have ho := diffPlan_ok t h
  constructor
  · intro hgn e he hne hone
    by_contra hm
    have hin : e.hex ∈ m.removed := by
      refine ho.mem_removed.mpr ⟨isSome_index.mpr ⟨hne, hone⟩, ?_⟩
      rw [Option.eq_none_iff_forall_ne_some]
      intro g hg
      exact hm (isSome_index.mp ⟨g, hg⟩).2
    exact (hgn _ hin).2 e he rfl
  · intro hone x hx
    obtain ⟨hw, hn⟩ := ho.mem_removed.mp hx
    obtain ⟨hne, hl⟩ := isSome_index.mp hw
    refine ⟨exists_of_readings (length_pos_iff.mp (by omega)), ?_⟩
    rintro e he rfl
    obtain ⟨g, hg⟩ := isSome_index.mpr ⟨hne, hone e he hne hl⟩
    cases hn.symm.trans hg

def asciiText : JsText where
  lower s := String.ofList (s.toList.map lowerAscii)
  upper s := String.ofList (s.toList.map Char.toUpper)
  quote s := "\"" ++ s ++ "\""
  spell q := toString q
  le a b := decide (a ≤ b)
  lower_byLayer := by decide

def blankEntity (id type : String) : Entity :=
  ⟨some id, none, type, none, false, none, none, none, none, none, none, none, none, none, none, none,
    none, none, none, none, none, none, none, none, none, none, none, none, none, none, none, none, none,
    none, none, none, none, none⟩

def circleEntity (id : String) (radius : ℚ) : Entity :=
  { blankEntity id "CIRCLE" with
    vertices := some [some [some 0, some 0, some 0]], radius := some radius }

theorem removed_handles_gone_erased_circle :
    (∃ e ∈ [circleEntity "A1" 1, circleEntity "B2" 1], e.hex = "A1") ∧ (circleEntity "B2" 1).hex ≠ "A1" := by
  have hp : diffPlan asciiText ⟨[circleEntity "A1" 1, circleEntity "B2" 1], [], []⟩
      ⟨[circleEntity "B2" 1], [], []⟩ = .ok { Mutations.empty with removed := ["A1"] } := by
    decide +kernel
  have hg := (removed_handles_gone_iff asciiText hp).mpr (by decide +kernel)
  obtain ⟨hw, hn⟩ := hg "A1" mem_cons_self
  exact ⟨hw, hn _ mem_cons_self⟩

theorem removed_handle_listed_twice :
    diffPlan asciiText ⟨[circleEntity "A1" 1], [], []⟩
        ⟨[circleEntity "A1" 1, circleEntity "A1" 1], [], []⟩ =
      .ok { Mutations.empty with removed := ["A1"] } ∧
    circleEntity "A1" 1 ∈ [circleEntity "A1" 1, circleEntity "A1" 1] ∧
    (circleEntity "A1" 1).hex = "A1" := by
  refine ⟨by decide +kernel, mem_cons_self, by decide +kernel⟩

end LeafWeb.CadEdit
