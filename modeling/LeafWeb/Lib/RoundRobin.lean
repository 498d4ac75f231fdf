import LeafWeb.Lib.Rotation

namespace LeafWeb.Lib.Rotation

open List

variable {κ α : Type} [DecidableEq κ] {q q' p q₁ q₂ : Rotation κ α} {a b k : κ} {x : α}

def Ahead (b a : κ) (q : Rotation κ α) : Prop := ∃ front back, q.ring = front ++ b :: back ∧ a ∉ front

lemma Served.ahead (hs : Served q a x q') (h : Exact q) (hb : q'.waiting b ≠ []) (hne : b ≠ a) : Ahead b a q' := by
  obtain ⟨ring, hq, hq'⟩ := hs.ring
  have hnd := h.nodup
  rw [hq, nodup_cons] at hnd
  have hm : b ∈ q.ring := (h.mem b).mpr (by rwa [← hs.others b hne])
  rw [hq, mem_cons] at hm
  obtain ⟨front, back, hsp⟩ := append_of_mem (hm.resolve_left hne)
  refine ⟨front, back ++ (if q'.waiting a = [] then [] else [a]), ?_, ?_⟩
  · rw [hq', hsp]
    simp
  · intro ha
    exact hnd.1 (by rw [hsp]; exact mem_append_left _ ha)

lemma Ahead.front (h : Ahead b a q) (hs : Served q k x q') (hk : k ≠ b) : k ≠ a ∧ Ahead b a q' := by
  obtain ⟨front, back, hf, ha⟩ := h
  obtain ⟨ring, hq, hq'⟩ := hs.ring
  rw [hq] at hf
  cases front with
  | nil => exact absurd (cons.inj hf).1 hk
  | cons c front =>
    obtain ⟨rfl, hr⟩ := cons.inj hf
    refine ⟨fun he => ha (by simp [he]), front,
      back ++ (if q'.waiting k = [] then [] else [k]), ?_, ?_⟩
    · rw [hq', hr]
      simp
    · exact fun hm => ha (mem_cons_of_mem _ hm)

variable [DecidableEq α] {l : Option κ} {ms ms₁ ms₂ ms₃ : List (Option κ × Rotation κ α)}

inductive Move : Rotation κ α → Option κ → Rotation κ α → Prop
  | same (q : Rotation κ α) : Move q none q
  | arrive {q : Rotation κ α} {k : κ} (x : α) (h : ¬ q.Drained k) : Move q none (q.enqueue k x)
  | serve {q q' : Rotation κ α} {k : κ} {x : α} (h : Served q k x q') : Move q (some k) q'
  | leave {q : Rotation κ α} {k : κ} {x : α} (h : x ∈ q.waiting k) : Move q none (q.withdraw k x)

lemma Exact.move (h : Exact q) (hm : Move q l q') : Exact q' := by
  cases hm with
  | same => exact h
  | arrive x hd => exact (h.enqueue_iff x).mpr hd
  | serve hs => exact hs.exact h
  | leave hx => exact h.withdraw (ne_nil_of_mem hx)

def Run : Rotation κ α → List (Option κ × Rotation κ α) → Prop
  | _, [] => True
  | q, m :: ms => Move q m.1 m.2 ∧ Run m.2 ms

lemma run_append (ms ms' : List (Option κ × Rotation κ α)) (m : Option κ × Rotation κ α) :
    Run q (ms ++ m :: ms') ↔ Run q (ms ++ [m]) ∧ Run m.2 ms' := by
  induction ms generalizing q with
  | nil => simp [Run]
  | cons m' ms ih => simp [Run, ih, and_assoc]

lemma Exact.run {m : Option κ × Rotation κ α} (h : Exact q) (hr : Run q (ms ++ [m])) : ∃ p, Exact p ∧
    Move p m.1 m.2 := by
  induction ms generalizing q with
  | nil => exact ⟨q, h, hr.1⟩
  | cons m' ms ih => exact ih (h.move hr.1) hr.2

lemma Ahead.move (h : Ahead b a q) (hm : Move q l q') (hb : q'.waiting b ≠ []) (hl : l ≠ some b) :
    Ahead b a q' := by
  cases hm with
  | same => exact h
  | serve hs =>
    exact (h.front hs (fun he => hl (he ▸ rfl))).2
  | arrive x hd =>
    rename_i k
    obtain ⟨front, back, hf, ha⟩ := h
    rw [Ahead, ring_enqueue]
    split_ifs
    · exact ⟨front, back ++ [k], by simp [hf], ha⟩
    · exact ⟨front, back, hf, ha⟩
  | leave hx =>
    rename_i k x
    obtain ⟨front, back, hf, ha⟩ := h
    rw [Ahead, ring_withdraw (ne_nil_of_mem hx)]
    split_ifs with he
    · have hk : b ≠ k := by
        intro hbk
        rw [waiting_withdraw, if_pos hbk] at hb
        exact hb he
      rw [hf, erase_append]
      split_ifs with hmem
      · exact ⟨front.erase k, back, rfl, fun hm => ha (mem_of_mem_erase hm)⟩
      · exact ⟨front, back.erase k, by rw [erase_cons_tail (by simpa using hk)], ha⟩
    · exact ⟨front, back, hf, ha⟩

lemma Ahead.not_next (h : Ahead b a q) (hne : b ≠ a) (hb : ∀ m ∈ ms, m.2.waiting b ≠ [])
    (hl : ∀ m ∈ ms, m.1 ≠ some b) : ¬ Run q (ms ++ [(some a, p)]) := by
  induction ms generalizing q with
  | nil =>
    rintro ⟨hm, -⟩
    cases hm with
    | serve hs => exact (h.front hs hne.symm).1 rfl
  | cons m ms ih =>
    rintro ⟨hm, hr⟩
    exact ih (h.move hm (hb m mem_cons_self) (hl m mem_cons_self))
      (fun m' hm' => hb m' (mem_cons_of_mem m hm'))
      (fun m' hm' => hl m' (mem_cons_of_mem m hm')) hr

lemma Exact.fair (h : Exact q) (hr : Run q (ms₁ ++ (some a, q₁) :: (ms₂ ++ (some a, q₂) :: ms₃))) (hne : b ≠ a)
    (hb : ∀ m ∈ (some a, q₁) :: ms₂, m.2.waiting b ≠ []) : ∃ m ∈ ms₂, m.1 = some b := by
  obtain ⟨hr₁, hr'⟩ := (run_append _ _ _).mp hr
  obtain ⟨hr₂, -⟩ := (run_append _ _ _).mp hr'
  obtain ⟨p, hp, hm⟩ := h.run hr₁
  by_contra hno
  push Not at hno
  cases hm with
  | serve hs =>
    have ha : Ahead b a q₁ := hs.ahead hp (hb _ mem_cons_self) hne
    exact ha.not_next hne (fun m hm => hb m (mem_cons_of_mem _ hm)) hno hr₂

end LeafWeb.Lib.Rotation
