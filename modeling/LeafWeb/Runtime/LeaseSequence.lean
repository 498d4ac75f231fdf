import LeafWeb.Runtime.Supervisor

namespace LeafWeb.Runtime

open Lib Transition List Slot Option Supervisor

def Slot.assignmentId (t : Slot) : Option String := t.binding.map fun b => b.assignment.assignmentId

def Call.recorded : Call → Option (String × ℕ × ℤ)
  | .recording body k n => some (body.assignmentId, k, n)
  | _ => none

def Reply.isOk : Reply → Bool
  | .ok _ _ => true
  | _ => false

structure Watched where
  sup : Supervisor
  accepted : List (String × ℤ)

def watch (cfg : Settings) (w : Watched) (e : Event) : Outcome × Watched :=
  ((step cfg w.sup e).1, ⟨(step cfg w.sup e).2, w.accepted ++ (step cfg w.sup e).1.accepted.toList⟩)

def Watched.start (poolSize : ℕ) : Watched := ⟨.start poolSize, []⟩

def Watched.Unused (w : Watched) (a : String) : Prop := ∀ p ∈ w.accepted, p.1 = a → p.2 ≤ 0 deriving Decidable

def Watched.Unbound (w : Watched) (a : String) : Prop :=
  ∀ t ∈ w.sup.slots, t.assignmentId ≠ some a deriving Decidable

def Call.Fenced (w : Watched) (turn : Turn) : Call → Prop
  | .checking body _ => ∀ c ∈ w.sup.calls, ∀ x ∈ c.recorded, x.1 ≠ body.assignmentId
  | .recording body k _ => w.sup.slots[k]?.bind assignmentId = some body.assignmentId
  | .replacing _ k (some b) _ => ∀ t ∈ w.sup.slots[k]?,
      (t.load b.assignment.assignmentId turn.reply).2.isOk →
        w.Unused b.assignment.assignmentId ∧ w.Unbound b.assignment.assignmentId
  | _ => True

/-- A lease is checked only while no other for its assignment waits for the write of its sequence, the
sequence is written only to a slot that is bound to its assignment, and a slot is bound, by `assign` or
after a replacement, only to an assignment that no other slot has and that nothing above zero was accepted for. -/
def Fenced (w : Watched) : Event → Prop
  | .assign b => w.Unbound b.assignment.assignmentId → w.Unused b.assignment.assignmentId
  | .resume i turn => ∀ c ∈ w.sup.calls[i]?, c.Fenced w turn
  | _ => True

instance (w : Watched) (turn : Turn) : (c : Call) → Decidable (c.Fenced w turn)
  | .checking .. => inferInstanceAs (Decidable (∀ c ∈ w.sup.calls, ∀ x ∈ c.recorded, _))
  | .recording .. => inferInstanceAs (Decidable (_ = some _))
  | .replacing _ k (some _) _ => inferInstanceAs (Decidable (∀ t ∈ w.sup.slots[k]?, _ → _ ∧ _))
  | .replacing _ _ none _ | .returned | .looking .. | .starting .. | .sending .. | .closing .. |
    .storing .. | .loading .. | .abandoning .. | .rejecting .. | .readying .. => isTrue trivial

instance (w : Watched) : (e : Event) → Decidable (Fenced w e)
  | .assign b => inferInstanceAs
      (Decidable (w.Unbound b.assignment.assignmentId → w.Unused b.assignment.assignmentId))
  | .resume i turn => inferInstanceAs (Decidable (∀ c ∈ w.sup.calls[i]?, c.Fenced w turn))
  | .invoke .. | .release .. | .exit .. => isTrue trivial

variable {cfg : Settings} {w : Watched} {s' : Supervisor} {e : Event} {i k j : ℕ} {t t₀ : Slot}
  {f : Slot → Slot} {a : String} {b : Binding} {s : Supervisor}

structure Slot.Within (t t₀ : Slot) : Prop where
  bound : ∀ a, t.assignmentId = some a → t₀.assignmentId = some a ∧
    t.highestLeaseSequence = t₀.highestLeaseSequence
  nonneg : 0 ≤ t₀.highestLeaseSequence → 0 ≤ t.highestLeaseSequence

lemma Slot.within_of_same (hb : t.binding = t₀.binding)
    (hh : t.highestLeaseSequence = t₀.highestLeaseSequence) : t.Within t₀ := by
  exact ⟨fun a ha => ⟨by rwa [assignmentId, ← hb], hh⟩, fun h => hh ▸ h⟩

lemma Slot.Within.refl (t : Slot) : t.Within t := within_of_same rfl rfl

lemma Slot.within_of_unbound (hb : t.binding = none)
    (hn : 0 ≤ t₀.highestLeaseSequence → 0 ≤ t.highestLeaseSequence) : t.Within t₀ := by
  refine ⟨?_, hn⟩
  intro a ha
  rw [assignmentId, hb] at ha
  cases ha

lemma Slot.replace_within (t : Slot) : t.replace.Within t := within_of_unbound rfl fun _ => le_rfl

def Supervisor.recorded (s : Supervisor) (j : ℕ) : Option (String × ℕ × ℤ) := s.calls[j]?.bind Call.recorded

inductive Fence (w : Watched) : Option (String × ℤ) → Supervisor → Prop
  | bind {s' : Supervisor} (a : String) (k : ℕ)
      (hslots : ∀ (j : ℕ) t, s'.slots[j]? = some t → ∃ t₀, w.sup.slots[j]? = some t₀ ∧ (t.Within t₀ ∨
        j = k ∧ t.assignmentId = some a ∧ w.Unused a ∧ w.Unbound a ∧
          t.highestLeaseSequence = t₀.highestLeaseSequence))
      (hcalls : ∀ j x, s'.recorded j = some x → w.sup.recorded j = some x) : Fence w none s'
  | check {s' : Supervisor} {i k : ℕ} {a : String} {n : ℤ} {t : Slot}
      (halone : ∀ c ∈ w.sup.calls, ∀ x ∈ c.recorded, x.1 ≠ a) (hslots : s'.slots = w.sup.slots)
      (hfound : w.sup.slots[k]? = some t) (hbound : t.assignmentId = some a)
      (hhigh : t.highestLeaseSequence ≤ n)
      (hcalls : ∀ j x, s'.recorded j = some x → j = i ∧ x = (a, k, n) ∨ w.sup.recorded j = some x) :
      Fence w none s'
  | accept {s' : Supervisor} {i k : ℕ} {a : String} {n : ℤ} (hcall : w.sup.recorded i = some (a, k, n))
      (hbound : w.sup.slots[k]?.bind assignmentId = some a)
      (hslots : s'.slots = w.sup.slots.modify k fun t => { t with highestLeaseSequence := n })
      (hcalls : ∀ j x, s'.recorded j = some x → j ≠ i ∧ w.sup.recorded j = some x) :
      Fence w (some (a, n)) s'

variable {n : ℕ} {slots : List Slot} {c : Call} {body : Body} {turn : Turn}

lemma Fence.quiet (hs : ∀ (j : ℕ) t, s'.slots[j]? = some t → ∃ t₀, w.sup.slots[j]? = some t₀ ∧ t.Within t₀)
    (hc : ∀ j x, s'.recorded j = some x → w.sup.recorded j = some x) : Fence w none s' := by
  refine .bind "" 0 (fun j t ht => ?_) hc
  obtain ⟨t₀, ht₀, hw⟩ := hs j t ht
  exact ⟨t₀, ht₀, .inl hw⟩

lemma getElem?_modify_some {A : Type} {l : List A} {f : A → A} {t : A} (h : (l.modify k f)[j]? = some t) :
    ∃ t₀, l[j]? = some t₀ ∧ (j = k ∧ t = f t₀ ∨ j ≠ k ∧ t = t₀) := by
  rw [getElem?_modify] at h
  obtain ⟨t₀, ht₀, rfl⟩ := map_eq_some_iff.mp h
  refine ⟨t₀, ht₀, ?_⟩
  split_ifs with hkj
  · exact .inl ⟨hkj.symm, rfl⟩
  · exact .inr ⟨fun hjk => hkj hjk.symm, rfl⟩

lemma within_modify (hf : ∀ t ∈ slots[k]?, (f t).Within t) (j : ℕ) (t : Slot)
    (ht : (slots.modify k f)[j]? = some t) : ∃ t₀, slots[j]? = some t₀ ∧ t.Within t₀ := by
  obtain ⟨t₀, ht₀, ⟨rfl, rfl⟩ | ⟨-, rfl⟩⟩ := getElem?_modify_some ht
  · exact ⟨t₀, ht₀, hf t₀ ht₀⟩
  · exact ⟨t, ht₀, .refl t⟩

lemma recorded_set {x : String × ℕ × ℤ} (hc : s'.calls = s.calls.set i c) (hx : s'.recorded j = some x) :
    j = i ∧ c.recorded = some x ∨ j ≠ i ∧ s.recorded j = some x := by
  unfold recorded at hx ⊢
  rw [hc, getElem?_set] at hx
  split_ifs at hx with hij hlt
  · exact .inl ⟨hij.symm, hx⟩
  · cases hx
  · exact .inr ⟨fun hji => hij hji.symm, hx⟩

lemma recorded_of_set (hcl : s'.calls = s.calls.set i c) (hc : c.recorded = none) (j : ℕ)
    (x : String × ℕ × ℤ) (hx : s'.recorded j = some x) : j ≠ i ∧ s.recorded j = some x := by
  rcases recorded_set hcl hx with ⟨-, hn⟩ | hold
  · cases hc.symm.trans hn
  · exact hold

lemma recorded_append (hcl : s'.calls = s.calls ++ [c]) (hc : c.recorded = none) (j : ℕ)
    (x : String × ℕ × ℤ) (hx : s'.recorded j = some x) : s.recorded j = some x := by
  unfold recorded at hx ⊢
  rw [hcl, getElem?_append] at hx
  split_ifs at hx with hlt
  · exact hx
  obtain ⟨c', hc', hr⟩ := bind_eq_some_iff.mp hx
  rw [mem_singleton.mp (mem_of_getElem? hc'), hc] at hr
  cases hr

lemma Fence.onward (hcl : s'.calls = w.sup.calls.set i c)
    (hc : c.recorded = none) (hs : s'.slots = w.sup.slots.modify k f)
    (hf : ∀ t ∈ w.sup.slots[k]?, (f t).Within t) : Fence w none s' := by
  refine .quiet ?_ fun j x hx => (recorded_of_set hcl hc j x hx).2
  rw [hs]
  exact within_modify hf

lemma Fence.stay (hcl : s'.calls = w.sup.calls.set i c) (hc : c.recorded = none)
    (hs : s'.slots = w.sup.slots) : Fence w none s' := by
  refine .quiet ?_ fun j x hx => (recorded_of_set hcl hc j x hx).2
  rw [hs]
  exact fun j t ht => ⟨t, ht, .refl t⟩

lemma Fence.nothing (hc : s'.calls = w.sup.calls) (hs : s'.slots = w.sup.slots) : Fence w none s' := by
  refine .quiet ?_ ?_
  · rw [hs]
    exact fun j t ht => ⟨t, ht, .refl t⟩
  unfold recorded
  rw [hc]
  exact fun _ _ hx => hx

lemma findAssignment_none : findAssignment slots a = none ↔ ∀ t ∈ slots, t.assignmentId ≠ some a := by
  unfold findAssignment assignmentId
  rw [findIdx?_eq_none_iff]
  refine forall₂_congr fun t _ => ?_
  cases t.binding <;> simp

lemma findAssignment_some (h : findAssignment slots a = some k) :
    ∃ t, slots[k]? = some t ∧ t.assignmentId = some a := by
  obtain ⟨hlt, hk, -⟩ := findIdx?_eq_some_iff_getElem.mp h
  obtain ⟨b, hb, ha⟩ := (any_eq_true _ _).mp hk
  refine ⟨slots[k], getElem?_eq_getElem hlt, ?_⟩
  rw [assignmentId, hb, map_some, of_decide_eq_true ha]

lemma verifyLease_ok {authorization : Authorization} {now n : ℤ}
    (h : verifyLease cfg slots body authorization now = .ok (k, n)) :
    ∃ t, slots[k]? = some t ∧ t.assignmentId = some body.assignmentId ∧ t.highestLeaseSequence ≤ n := by
  simp only [verifyLease, bind_eq_ok, demand_eq_ok] at h
  obtain ⟨_, -, _, -, _, -, i, hf, t, ht, _, -, _, -, _, -, _, -, _, -, m, hm, hkn⟩ := h
  cases hkn
  obtain ⟨t', ht', hb⟩ := findAssignment_some hf
  cases ht.symm.trans ht'
  exact ⟨t, ht, hb, of_decide_eq_true (filter_eq_some_iff.mp hm).2⟩

lemma assign_fence (hf : w.Unbound b.assignment.assignmentId → w.Unused b.assignment.assignmentId) :
    Fence w none (assign w.sup b) := by
  unfold assign
  split
  · exact .nothing rfl rfl
  rename_i hn
  have hu : w.Unbound b.assignment.assignmentId := findAssignment_none.mp hn
  split
  · exact .nothing rfl rfl
  rename_i k _
  refine .bind b.assignment.assignmentId k ?_ (recorded_append rfl rfl)
  intro j t ht
  obtain ⟨t₀, ht₀, ⟨hj, rfl⟩ | ⟨-, rfl⟩⟩ := getElem?_modify_some ht
  · exact ⟨t₀, ht₀, .inr ⟨hj, rfl, hf hu, hu, rfl⟩⟩
  · exact ⟨t, ht₀, .inl (.refl t)⟩

lemma release_fence (a : String) : Fence w (release w.sup a).1.accepted (release w.sup a).2 := by
  unfold release
  split
  · exact .nothing rfl rfl
  split_ifs
  · exact .nothing rfl rfl
  · exact .quiet (within_modify fun t _ => t.replace_within) fun _ _ hx => hx

lemma send_fence :
    let u := { w.sup with clock := w.sup.clock + n }
    Fence w (send u i body k turn).1.accepted (send u i body k turn).2 := by
  intro u
  have hr : ∀ t ∈ w.sup.slots[k]?, ({ t.replace with locked := true } : Slot).Within t := fun t _ =>
    within_of_unbound rfl fun _ => le_rfl
  unfold send
  split
  · exact .nothing rfl rfl
  split_ifs
  · exact .nothing rfl rfl
  dsimp only
  split
  · exact .onward rfl rfl rfl hr
  · exact .onward rfl rfl rfl hr
  · exact .stay rfl rfl rfl
  · refine .stay rfl ?_ rfl
    split <;> rfl

lemma load_same (t : Slot) (a : String) (reply : Reply) :
    (t.load a reply).1.binding = t.binding ∧ (t.load a reply).1.highestLeaseSequence = t.highestLeaseSequence := by
  unfold load
  split
  · exact ⟨rfl, rfl⟩
  split_ifs
  · exact ⟨rfl, rfl⟩
  · split <;> exact ⟨rfl, rfl⟩

lemma loadChild_fence {reply : Reply} :
    let u := { w.sup with clock := w.sup.clock + n }
    Fence w none (loadChild u i b k reply) := by
  intro u
  unfold loadChild
  split
  · exact .nothing rfl rfl
  rename_i t ht
  split_ifs
  · exact .nothing rfl rfl
  refine .onward rfl ?_ rfl ?_
  · split <;> rfl
  intro t' ht'
  cases ht.symm.trans ht'
  obtain ⟨hb, hh⟩ := load_same t b.assignment.assignmentId reply
  exact within_of_same hb hh

lemma restored_eq (t : Slot) (b : Binding) (reply : Reply) :
    t.restored (some b) reply = if (t.load b.assignment.assignmentId reply).2.isOk then
      { (t.load b.assignment.assignmentId reply).1 with binding := some b }
    else (t.load b.assignment.assignmentId reply).1 := by
  simp only [restored]
  rcases t.load b.assignment.assignmentId reply with ⟨t', reply'⟩
  cases reply' <;> rfl

lemma restore_fence {response : Response} {saved : Option Binding}
    (hf : (Call.replacing body k saved response).Fenced w turn) :
    let u := { w.sup with clock := w.sup.clock + n }
    Fence w none (restore u i body k saved response turn.reply).2 := by
  cases saved with
  | none => exact .onward rfl rfl rfl fun t _ => within_of_same rfl rfl
  | some b =>
    by_cases hok : ∃ t ∈ w.sup.slots[k]?, (t.load b.assignment.assignmentId turn.reply).2.isOk
    · obtain ⟨t, ht, hok⟩ := hok
      obtain ⟨hun, hu⟩ := hf t ht hok
      refine .bind b.assignment.assignmentId k ?_ fun j x hx => (recorded_of_set rfl rfl j x hx).2
      intro j t' ht'
      obtain ⟨t₀, ht₀, ⟨hj, rfl⟩ | ⟨-, rfl⟩⟩ := getElem?_modify_some ht'
      · rw [hj] at ht₀
        cases ht.symm.trans ht₀
        refine ⟨t, hj ▸ ht, .inr ⟨hj, ?_, hun, hu, ?_⟩⟩
        · rw [restored_eq, if_pos hok]
          rfl
        · rw [restored_eq, if_pos hok]
          exact (load_same t _ _).2
      · exact ⟨t', ht₀, .inl (.refl t')⟩
    · refine .onward rfl rfl rfl ?_
      intro t ht
      have hn : ¬(t.load b.assignment.assignmentId turn.reply).2.isOk := fun h => hok ⟨t, ht, h⟩
      rw [restored_eq, if_neg hn]
      obtain ⟨hb, hh⟩ := load_same t b.assignment.assignmentId turn.reply
      exact within_of_same hb hh

lemma resume_fence (hf : Fenced w (.resume i turn)) :
    Fence w (step cfg w.sup (.resume i turn)).1.accepted (step cfg w.sup (.resume i turn)).2 := by
  simp only [step, resume]
  cases hc : w.sup.calls[i]? with
  | none => exact .nothing rfl rfl
  | some c =>
    have hf := hf c hc
    cases c with
    | returned => exact .nothing rfl rfl
    | checking body authorization =>
      dsimp only
      split
      · exact .stay rfl rfl rfl
      rename_i k n hok
      obtain ⟨t, ht, hb, hh⟩ := verifyLease_ok hok
      refine .check (i := i) hf rfl ht hb hh fun j x hx => ?_
      refine (recorded_set rfl hx).imp (fun hn => ⟨hn.1, ?_⟩) And.right
      exact (some.inj hn.2).symm
    | recording body k sequence =>
      refine .accept (i := i) ?_ hf rfl (recorded_of_set rfl rfl)
      rw [recorded, hc]
      rfl
    | looking body k =>
      simp only [lookup]
      split
      · exact .stay rfl rfl rfl
      · split_ifs <;> exact .stay rfl rfl rfl
    | starting body k =>
      dsimp only
      split_ifs <;> exact .stay rfl rfl rfl
    | sending body k => exact send_fence
    | replacing body k saved response => exact restore_fence hf
    | closing | storing => exact .stay rfl rfl rfl
    | loading binding k => exact loadChild_fence
    | abandoning k => exact .onward rfl rfl rfl fun t _ => t.replace_within
    | rejecting k => exact .onward rfl rfl rfl fun t _ => within_of_unbound rfl id
    | readying k => exact .onward rfl rfl rfl fun t _ => within_of_same rfl rfl

lemma step_fence (hf : Fenced w e) : Fence w (step cfg w.sup e).1.accepted (step cfg w.sup e).2 := by
  cases e with
  | invoke body authorization =>
    exact .quiet (fun j t ht => ⟨t, ht, .refl t⟩) (recorded_append rfl rfl)
  | assign binding => exact assign_fence hf
  | release a => exact release_fence a
  | exit k => exact .quiet (within_modify fun t _ => within_of_same rfl rfl) fun _ _ hx => hx
  | resume i turn => exact resume_fence hf

structure Ordered (w : Watched) : Prop where
  nonneg : ∀ (j : ℕ) t, w.sup.slots[j]? = some t → 0 ≤ t.highestLeaseSequence
  single : ∀ (i j : ℕ) t t' a, w.sup.slots[i]? = some t → w.sup.slots[j]? = some t' →
    t.assignmentId = some a → t'.assignmentId = some a → i = j
  high : ∀ (j : ℕ) t, w.sup.slots[j]? = some t → ∀ p ∈ w.accepted, t.assignmentId = some p.1 →
    p.2 ≤ t.highestLeaseSequence
  one : ∀ i j x y, w.sup.recorded i = some x → w.sup.recorded j = some y → x.1 = y.1 → i = j
  pending : ∀ i a k n, w.sup.recorded i = some (a, k, n) → 0 ≤ n ∧ ∀ p ∈ w.accepted, p.1 = a → p.2 ≤ n
  ordered : w.accepted.Pairwise fun p q => p.1 = q.1 → p.2 ≤ q.2

section

variable (h : Ordered w)
include h

lemma Ordered.bind
    (hs : ∀ (j : ℕ) t, s'.slots[j]? = some t → ∃ t₀, w.sup.slots[j]? = some t₀ ∧ (t.Within t₀ ∨
      j = k ∧ t.assignmentId = some a ∧ w.Unused a ∧ w.Unbound a ∧
        t.highestLeaseSequence = t₀.highestLeaseSequence))
    (hc : ∀ j x, s'.recorded j = some x → w.sup.recorded j = some x) : Ordered ⟨s', w.accepted⟩ := by
  refine ⟨?_, ?_, ?_, ?_, ?_, h.ordered⟩
  · intro j t ht
    obtain ⟨t₀, ht₀, hw | ⟨-, -, -, -, hsm⟩⟩ := hs j t ht
    · exact hw.nonneg (h.nonneg j t₀ ht₀)
    · rw [hsm]
      exact h.nonneg j t₀ ht₀
  · intro i j t t' a' ht ht' ha ha'
    obtain ⟨t₀, ht₀, hw | ⟨hi, hn, -, hu, -⟩⟩ := hs i t ht <;>
      obtain ⟨t₁, ht₁, hw' | ⟨hj, hn', -, hu', -⟩⟩ := hs j t' ht'
    · exact h.single i j t₀ t₁ a' ht₀ ht₁ (hw.bound a' ha).1 (hw'.bound a' ha').1
    · exact absurd ((hw.bound a' ha).1.trans (ha'.symm.trans hn')) (hu' t₀ (mem_of_getElem? ht₀))
    · exact absurd ((hw'.bound a' ha').1.trans (ha.symm.trans hn)) (hu t₁ (mem_of_getElem? ht₁))
    · exact hi.trans hj.symm
  · intro j t ht p hp hb
    obtain ⟨t₀, ht₀, hw | ⟨-, hn, hun, -, hsm⟩⟩ := hs j t ht
    · obtain ⟨hb, hsm⟩ := hw.bound _ hb
      rw [hsm]
      exact h.high j t₀ ht₀ p hp hb
    · have hp0 := hun p hp (mem_unique hb hn)
      rw [hsm]
      exact hp0.trans (h.nonneg j t₀ ht₀)
  · intro i j x y hx hy
    exact h.one i j x y (hc i x hx) (hc j y hy)
  · intro i a' k' n hi
    exact h.pending i a' k' n (hc i _ hi)

lemma Ordered.check {n : ℤ} (ha : ∀ c ∈ w.sup.calls, ∀ x ∈ c.recorded, x.1 ≠ a) (hs : s'.slots = w.sup.slots)
    (hf : w.sup.slots[k]? = some t) (hb : t.assignmentId = some a) (hh : t.highestLeaseSequence ≤ n)
    (hcl : ∀ j x, s'.recorded j = some x → j = i ∧ x = (a, k, n) ∨ w.sup.recorded j = some x) :
    Ordered ⟨s', w.accepted⟩ := by
  have hn : ∀ j x, s'.recorded j = some x → j = i ∧ x = (a, k, n) ∨ x.1 ≠ a ∧ w.sup.recorded j = some x := by
    intro j x hx
    refine (hcl j x hx).imp_right fun hold => ⟨?_, hold⟩
    obtain ⟨c, hc, hr⟩ := bind_eq_some_iff.mp hold
    exact ha c (mem_of_getElem? hc) x hr
  refine ⟨?_, ?_, ?_, ?_, ?_, h.ordered⟩
  · rw [hs]
    exact h.nonneg
  · rw [hs]
    exact h.single
  · rw [hs]
    exact h.high
  · intro j j' x y hx hy hxy
    rcases hn j x hx with ⟨rfl, rfl⟩ | ⟨hne, hx⟩
    · rcases hn j' y hy with ⟨rfl, -⟩ | ⟨hne, -⟩
      · rfl
      · exact absurd hxy.symm hne
    · rcases hn j' y hy with ⟨-, rfl⟩ | ⟨-, hy⟩
      · exact absurd hxy hne
      · exact h.one j j' x y hx hy hxy
  · intro j a' k' n' hj
    rcases hn j _ hj with ⟨-, heq⟩ | ⟨-, hj⟩
    swap
    · exact h.pending j a' k' n' hj
    cases heq
    refine ⟨(h.nonneg k t hf).trans hh, ?_⟩
    intro p hp hpa
    exact (h.high k t hf p hp (hpa ▸ hb)).trans hh

lemma Ordered.accept {n : ℤ} (hc : w.sup.recorded i = some (a, k, n))
    (hb : w.sup.slots[k]?.bind assignmentId = some a)
    (hsl : s'.slots = w.sup.slots.modify k fun t => { t with highestLeaseSequence := n })
    (hcl : ∀ j x, s'.recorded j = some x → j ≠ i ∧ w.sup.recorded j = some x) :
    Ordered ⟨s', w.accepted ++ [(a, n)]⟩ := by
  obtain ⟨hn, hpn⟩ := h.pending i a k n hc
  obtain ⟨tk, htk, hka⟩ := bind_eq_some_iff.mp hb
  have hno : ∀ j x, s'.recorded j = some x → x.1 ≠ a := by
    intro j x hx hxa
    obtain ⟨hne, hold⟩ := hcl j x hx
    exact hne (h.one j i _ _ hold hc hxa)
  have hold : ∀ (j : ℕ) t, s'.slots[j]? = some t → ∃ t₀, w.sup.slots[j]? = some t₀ ∧
      t.assignmentId = t₀.assignmentId ∧ (j = k ∧ t.highestLeaseSequence = n ∨ j ≠ k ∧ t = t₀) := by
    intro j t ht
    rw [hsl] at ht
    obtain ⟨t₀, ht₀, ⟨hj, rfl⟩ | ⟨hj, rfl⟩⟩ := getElem?_modify_some ht
    · exact ⟨t₀, ht₀, rfl, .inl ⟨hj, rfl⟩⟩
    · exact ⟨t, ht₀, rfl, .inr ⟨hj, rfl⟩⟩
  refine ⟨?_, ?_, ?_, ?_, ?_, ?_⟩
  · intro j t ht
    obtain ⟨t₀, ht₀, -, ⟨-, hn'⟩ | ⟨-, rfl⟩⟩ := hold j t ht
    · exact hn'.symm ▸ hn
    · exact h.nonneg j t ht₀
  · intro j j' t t' a' ht ht' ha ha'
    obtain ⟨t₀, ht₀, hs, -⟩ := hold j t ht
    obtain ⟨t₁, ht₁, hs', -⟩ := hold j' t' ht'
    exact h.single j j' t₀ t₁ a' ht₀ ht₁ (hs ▸ ha) (hs' ▸ ha')
  · intro j t ht p hp hpa
    obtain ⟨t₀, ht₀, hs, hcs⟩ := hold j t ht
    rw [hs] at hpa
    rcases mem_append.mp hp with hp | hp
    · rcases hcs with ⟨rfl, hn'⟩ | ⟨-, rfl⟩
      · cases htk.symm.trans ht₀
        rw [hn']
        exact hpn p hp (mem_unique hpa hka)
      · exact h.high j t ht₀ p hp hpa
    · rw [mem_singleton.mp hp] at hpa ⊢
      rcases hcs with ⟨-, hn'⟩ | ⟨hj, -⟩
      · exact hn'.ge
      · exact absurd (h.single j k t₀ tk a ht₀ htk hpa hka) hj
  · intro j j' x y hx hy
    exact h.one j j' x y (hcl j x hx).2 (hcl j' y hy).2
  · intro j a' k' n' hj
    obtain ⟨hn', hpn'⟩ := h.pending j a' k' n' (hcl j _ hj).2
    refine ⟨hn', fun p hp hpa => ?_⟩
    rcases mem_append.mp hp with hp | hp
    · exact hpn' p hp hpa
    · rw [mem_singleton.mp hp] at hpa
      exact absurd hpa.symm (hno j _ hj)
  · refine pairwise_append.mpr ⟨h.ordered, pairwise_singleton _ _, ?_⟩
    intro p hp q hq hpq
    rw [mem_singleton.mp hq] at hpq ⊢
    exact hpn p hp hpq

lemma Ordered.step (hfn : Fenced w e) : Ordered (watch cfg w e).2 := by
  have hf : Fence w (Runtime.step cfg w.sup e).1.accepted (Runtime.step cfg w.sup e).2 := step_fence hfn
  unfold watch
  generalize (Runtime.step cfg w.sup e).1.accepted = accepted at hf ⊢
  cases hf with
  | bind a k hs hc =>
    simpa using h.bind hs hc
  | check ha hs hfd hb hh hc =>
    simpa using h.check ha hs hfd hb hh hc
  | accept hcl hb hs hc => exact h.accept hcl hb hs hc

end

lemma Ordered.start (pool : ℕ) : Ordered (.start pool) where
  nonneg j t ht := by
    rw [eq_of_mem_replicate (mem_of_getElem? ht)]
  single i j t t' a ht _ ha := by
    rw [eq_of_mem_replicate (mem_of_getElem? ht)] at ha
    cases ha
  high j t _ p hp := by cases hp
  one i j x y hx := by cases hx
  pending i a k n hi := by cases hi
  ordered := Pairwise.nil

lemma accepted_after (w : Watched) (es : List Event) :
    (after (watch cfg) w es).accepted =
      w.accepted ++ (trace (step cfg) w.sup es).filterMap fun x => x.2.accepted := by
  induction es generalizing w with
  | nil => simp
  | cons e es ih =>
    rw [after_cons, ih, trace_cons, filterMap_cons]
    simp only [watch, append_assoc]
    cases (step cfg w.sup e).1.accepted <;> rfl

theorem superseded_lease_refused (cfg : Settings) (poolSize : ℕ) (es : List Event)
    (hfenced : Along (watch cfg) Fenced (.start poolSize) es) :
    ((trace (step cfg) (.start poolSize) es).filterMap fun x => x.2.accepted).Pairwise
      fun p q => p.1 = q.1 → p.2 ≤ q.2 := by
  have hr : Ordered (after (watch cfg) (.start poolSize) es) :=
    invariant_along (Ordered.start poolSize) (fun w e hw he => hw.step he) es hfenced
  have ho := hr.ordered
  rw [accepted_after] at ho
  exact ho

theorem renewed_leases_accepted :
    ((trace (step .usual) (.start 1)
      (bound ++ [.invoke (.sample "i") (.sample 1), .invoke (.sample "j") (.sample 2)] ++
        resumed 1 2 .smooth ++ resumed 2 2 .smooth)).filterMap fun x => x.2.accepted).Pairwise
      fun p q => p.1 = q.1 → p.2 ≤ q.2 :=
  superseded_lease_refused .usual 1 _ (by decide +kernel)

theorem restored_binding_forgets :
    (trace (step .usual) (.start 1)
      (bound ++ [.invoke (.sample "i") (.sample 5)] ++ resumed 1 4 .smooth ++
        [.resume 1 { Turn.smooth with reply := .timeout }, .resume 1 .smooth,
          .invoke (.sample "j") (.sample 3)] ++ resumed 2 2 .smooth)).filterMap
      (fun x => x.2.accepted) = [("assignment-1", 5), ("assignment-1", 3)] := by
  decide +kernel

end LeafWeb.Runtime
