import LeafWeb.Broker.ExactlyOnce
import Mathlib.Algebra.Group.Subgroup.ZPowers.Basic
import Mathlib.Tactic.Linarith

namespace LeafWeb.Broker

open Lib Transition AdmissionRow

section

variable (s : AddSubgroup ℚ)

def AmountsIn (db : Db) : Event → Prop
  | .admitRun r _ _ => r.estimate ∈ s
  | e => ∀ x ∈ terminalOf db e, x.2.entry.counted ∈ s

structure Amounts (db : Db) : Prop where
  reserved : ∀ a ∈ db.admissions.rows, a.reservedUsd ∈ s
  paid : ∀ l ∈ db.ledger.rows, l.entry.counted ∈ s

end

variable {s : AddSubgroup ℚ} {db db' : Db} {key : String} {e : Event} {unit x : ℚ}

lemma quota_mem {r : RunRequest} (h : r.estimate ∈ s) (token : String) (now : ℤ) (reclaim : Bool) :
    (quota db r token now reclaim).2 ∈ s := by
  obtain ⟨_, _, _, _, hq⟩ | ⟨_, _, hq⟩ | ⟨hq, -⟩ := quota_cases db r token now reclaim
  · rw [hq]
    exact s.zero_mem
  · rw [hq]
    exact s.zero_mem
  · rwa [hq]

lemma Amounts.replace {b : AdmissionRow} {t : Table eventKey} (h : Amounts s db)
    (hr : db.admissions.Replaces key b t) (hb : b.reservedUsd ∈ s) : ∀ a ∈ t.rows, a.reservedUsd ∈ s := by
  intro a ha
  obtain rfl | ha := hr.mem a ha
  · exact hb
  · exact h.reserved a ha

lemma AmountsIn.paid {t : Terminal} (h : AmountsIn s db e) (ht : terminalOf db e = some (key, t)) :
    t.entry.counted ∈ s := by
  cases e with
  | admitRun | mark | stage => cases ht
  | settle | complete | reconcile => exact h _ ht

lemma Effect.amounts {answer : Except BrokerError Answer} (he : Effect db e answer db') (h : Amounts s db)
    (hin : AmountsIn s db e) : Amounts s db' := by
  cases he with
  | raised | idle | duplicated | refused => exact h
  | leased hk hins =>
    exact ⟨h.replace (Table.Replaces.insert hins) (quota_mem hin _ _ _), h.paid⟩
  | reclaimed hfn =>
    exact ⟨h.replace (Table.Replaces.modify hfn _ (reclaim_eventKey _ _ _ _))
      (quota_mem hin _ _ _), h.paid⟩
  | lapsed hfn =>
    have ha := h.reserved _ (Table.mem_of_find hfn)
    exact ⟨h.replace (Table.Replaces.modify hfn _ (lapse_eventKey _)) ha, h.paid⟩
  | started hfn =>
    have ha := h.reserved _ (Table.mem_of_find hfn)
    exact ⟨h.replace (Table.Replaces.modify hfn _ (start_eventKey _ _)) ha, h.paid⟩
  | staged hfn =>
    have ha := h.reserved _ (Table.mem_of_find hfn)
    exact ⟨h.replace (Table.Replaces.modify hfn _ (stage_eventKey _)) ha, h.paid⟩
  | finished ht hacc hf =>
    have hp := hin.paid ht
    cases hf with
    | mk hfn ho htn hc hi hins =>
      refine ⟨h.replace (Table.Replaces.modify hfn _ (finish_eventKey _ _ _)) s.zero_mem, ?_⟩
      intro l hl
      rw [Table.mem_insert hins] at hl
      obtain hl | rfl := hl
      · exact h.paid l hl
      · exact hc ▸ hp

lemma amounts_run {es : List Event} (hin : Along step (AmountsIn s) .empty es) :
    Amounts s (after step .empty es) := by
  have h0 : Amounts s .empty := by
    refine ⟨?_, ?_⟩
    · intro a ha
      cases ha
    · intro l hl
      cases hl
  refine (invariant_along (I := fun db => Consistent db ∧ Amounts s db) (s := Db.empty)
    ⟨fun _ => .absent, h0⟩ ?_ es hin).2
  rintro db e ⟨hc, h⟩ he
  exact ⟨step_consistent hc e, (step_effect hc e).amounts h he⟩

lemma le_of_le_add_tolerance {y : ℚ} (hu : 1 / 10 ^ 12 < unit)
    (hx : x ∈ AddSubgroup.zmultiples unit) (hy : y ∈ AddSubgroup.zmultiples unit)
    (h : x ≤ y + 1 / 10 ^ 12) : x ≤ y := by
  obtain ⟨n, hn⟩ := AddSubgroup.mem_zmultiples_iff.mp (AddSubgroup.sub_mem _ hx hy)
  rw [zsmul_eq_mul] at hn
  have hp : 0 < unit := lt_trans (by norm_num) hu
  by_contra hlt
  have hn0 : (0 : ℚ) < n * unit := by linarith
  have hn1 : 1 ≤ n := by exact_mod_cast (mul_pos_iff_of_pos_right hp).mp hn0
  have hs : unit ≤ n * unit := le_mul_of_one_le_left hp.le (by exact_mod_cast hn1)
  linarith

end LeafWeb.Broker
