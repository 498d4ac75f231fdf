import Mathlib.Algebra.GroupWithZero.Nat
import Mathlib.Data.List.Nodup

namespace LeafWeb.Lib

open List Except

variable {E A B C : Type}

def refuse (bad : Prop) [Decidable bad] (why : E) : Except E Unit := if bad then .error why else .ok ()

def demand (o : Option A) (why : E) : Except E A := o.elim (.error why) .ok

def given (c : Prop) [Decidable c] (check : Except E Unit) : Except E Unit := if c then check else .ok ()

def perhaps (check : A → Except E B) : Option A → Except E (Option B)
  | none => .ok none
  | some a => do return some (← check a)

def gather (step : List B → A → Except E B) : List B → List A → Except E (List B)
  | out, [] => .ok out
  | out, a :: rest => do
    let b ← step out a
    gather step (out ++ [b]) rest

variable {b : B} {a : A} {why e : E} {o : Option A} {f : A → Except E B}

@[simp] lemma bind_eq_ok {x : Except E A} : x >>= f = .ok b ↔ ∃ a, x = .ok a ∧ f a = .ok b := by
  cases x with
  | error | ok => simp [bind, Except.bind]

@[simp] lemma pure_eq_ok {b : A} : (pure a : Except E A) = .ok b ↔ a = b := by
  simp [pure, Except.pure]

@[simp] lemma throw_eq_ok : (throw e : Except E A) = .ok a ↔ False := by
  simp [throw, throwThe, MonadExceptOf.throw]

variable {bad c : Prop} {u : Unit}

@[simp] lemma refuse_eq_ok [Decidable bad] : refuse bad why = .ok u ↔ ¬bad := by
  unfold refuse
  split <;> simp [*]

@[simp] lemma demand_eq_ok : demand o why = .ok a ↔ o = some a := by
  cases o <;> simp [demand]

lemma bind_refuse [Decidable bad] {f : Unit → Except E B} :
    refuse bad why >>= f = .ok b ↔ ¬bad ∧ f () = .ok b := by
  rw [bind_eq_ok]
  exact ⟨fun ⟨_, h, hf⟩ => ⟨refuse_eq_ok.mp h, hf⟩, fun ⟨h, hf⟩ => ⟨(), refuse_eq_ok.mpr h, hf⟩⟩

lemma bind_demand : demand o why >>= f = .ok b ↔ ∃ a, o = some a ∧ f a = .ok b := by
  simp

@[simp] lemma given_eq_ok [Decidable c] {check : Except E Unit} :
    given c check = .ok u ↔ (c → check = .ok ()) := by
  unfold given
  split <;> simp [*]

variable {check : A → Except E B} {r : Option B}

lemma perhaps_eq_ok : perhaps check o = .ok r ↔ Option.Rel (fun a b => check a = .ok b) o r := by
  cases o with
  | none => cases r <;> simp [perhaps]
  | some a =>
    rw [perhaps, bind_eq_ok]
    cases r <;> simp

@[simp] lemma perhaps_none : perhaps check none = .ok r ↔ none = r := by
  simp [perhaps]

variable {as : List A} {bs : List B} {R : A → B → Prop}

lemma map_eq_of_forall₂ {g : B → C} {f : A → C} (h : Forall₂ R as bs) (hR : ∀ a b, R a b → f a = g b) :
    as.map f = bs.map g := by
  induction h with
  | nil => rfl
  | cons h _ ih => rw [map_cons, map_cons, ih, hR _ _ h]

lemma forall_mem_iff_of_forall₂ {P : A → Prop} {Q : B → Prop} (h : Forall₂ R as bs)
    (hR : ∀ a b, R a b → (P a ↔ Q b)) : (∀ a ∈ as, P a) ↔ ∀ b ∈ bs, Q b := by
  induction h with
  | nil => simp
  | cons h _ ih => rw [forall_mem_cons, forall_mem_cons, hR _ _ h, ih]

variable {o : Option (List A)}

lemma rel_of_getD (h : Forall₂ R (o.getD []) bs) :
    Option.Rel (Forall₂ R) o (o.map fun _ => bs) ∧ (o.map fun _ => bs).getD [] = bs := by
  cases o with
  | none => exact ⟨.none, (forall₂_nil_left_iff.mp h).symm⟩
  | some l => exact ⟨.some h, rfl⟩

lemma getD_of_rel {r : Option (List B)} (h : Option.Rel (Forall₂ R) o r) :
    Forall₂ R (o.getD []) (r.getD []) ∧ (o.map fun _ => r.getD []) = r := by
  cases h with
  | none => exact ⟨.nil, rfl⟩
  | some h => exact ⟨h, rfl⟩

variable {step : List B → A → Except E B} {base : A → B → Prop} {Inv : List B → Prop}

lemma gather_append (out : List B) (as : List A) (bs : List B) :
    (gather step out as = .ok bs → ∃ new, bs = out ++ new) := by
  induction as generalizing out with
  | nil =>
    intro h
    exact ⟨[], by simpa [gather] using (ok.inj h).symm⟩
  | cons a as ih =>
    intro h
    rw [gather, bind_eq_ok] at h
    obtain ⟨b, -, h⟩ := h
    obtain ⟨new, rfl⟩ := ih _ h
    exact ⟨b :: new, by simp⟩

variable {out new : List B} {K : Type} {limit total : ℕ}

lemma exists_of_gather (h : gather step out as = .ok bs) (hb : b ∈ bs) :
    b ∈ out ∨ ∃ a ∈ as, ∃ sofar, step sofar a = .ok b := by
  induction as generalizing out with
  | nil =>
    exact .inl (ok.inj h ▸ hb)
  | cons a as ih =>
    rw [gather, bind_eq_ok] at h
    obtain ⟨b', hs, h⟩ := h
    rcases ih h with hmem | ⟨a', ha', hm⟩
    · rcases mem_append.mp hmem with hmem | hmem
      · exact .inl hmem
      · rw [mem_singleton.mp hmem]
        exact .inr ⟨a, mem_cons_self, out, hs⟩
    · exact .inr ⟨a', mem_cons_of_mem _ ha', hm⟩

lemma mem_gather (h : gather step out as = .ok bs) (ha : a ∈ as) : ∃ b ∈ bs, ∃ sofar, step sofar a = .ok b := by
  induction as generalizing out with
  | nil => cases ha
  | cons a' as ih =>
    rw [gather, bind_eq_ok] at h
    obtain ⟨b, hs, h⟩ := h
    rcases mem_cons.mp ha with rfl | ha
    · obtain ⟨new, rfl⟩ := gather_append _ _ _ h
      exact ⟨b, by simp, out, hs⟩
    · exact ih h ha

lemma exists_gather (h : ∀ a ∈ as, ∃ b, ∀ sofar, step sofar a = .ok b) (out : List B) :
    ∃ bs, gather step out as = .ok bs := by
  induction as generalizing out with
  | nil => exact ⟨out, rfl⟩
  | cons a as ih =>
    obtain ⟨b, hb⟩ := h a mem_cons_self
    obtain ⟨bs, hbs⟩ := ih (fun x hx => h x (mem_cons_of_mem _ hx)) (out ++ [b])
    exact ⟨bs, by rw [gather, bind_eq_ok]; exact ⟨b, hb out, hbs⟩⟩

lemma gather_eq_ok (hs : ∀ out a b, Inv out → (step out a = .ok b ↔ base a b ∧ Inv (out ++ [b])))
    (hd : ∀ out b, Inv (out ++ [b]) → Inv out) (ho : Inv out) :
    gather step out as = .ok (out ++ new) ↔ Forall₂ base as new ∧ Inv (out ++ new) := by
  have hd' : ∀ more out, Inv (out ++ more) → Inv out := by
    intro more
    induction more with
    | nil => simp
    | cons b more ih =>
      intro out h
      rw [append_cons] at h
      exact hd _ _ (ih _ h)
  induction as generalizing out new with
  | nil =>
    rw [gather, ok.injEq, forall₂_nil_left_iff, self_eq_append_right]
    constructor
    · rintro rfl
      exact ⟨rfl, by simpa using ho⟩
    · exact fun h => h.1
  | cons a as ih =>
    rw [gather, bind_eq_ok]
    constructor
    · rintro ⟨b, hb, h⟩
      obtain ⟨hbs, hi⟩ := (hs _ _ _ ho).mp hb
      obtain ⟨more, heq⟩ := gather_append _ _ _ h
      have hn : new = b :: more := by
        rw [← append_right_inj out, heq, ← append_cons]
      subst hn
      rw [heq] at h
      obtain ⟨ha, hi'⟩ := (ih hi).mp h
      exact ⟨.cons hbs ha, by simpa using hi'⟩
    · rintro ⟨ha, hi⟩
      cases ha with
      | cons hbs ha =>
        rename_i b more
        rw [append_cons] at hi ⊢
        have hb : Inv (out ++ [b]) := hd' more _ hi
        exact ⟨b, (hs _ _ _ ho).mpr ⟨hbs, hb⟩, (ih hb).mpr ⟨ha, hi⟩⟩

lemma gather_nil (Inv : List B → Prop)
    (hs : ∀ out a b, Inv out → (step out a = .ok b ↔ base a b ∧ Inv (out ++ [b])))
    (hd : ∀ out b, Inv (out ++ [b]) → Inv out) (hn : Inv []) :
    gather step [] as = .ok bs ↔ Forall₂ base as bs ∧ Inv bs := by
  have h : gather step [] as = .ok ([] ++ bs) ↔ Forall₂ base as bs ∧ Inv ([] ++ bs) := gather_eq_ok hs hd hn
  rwa [nil_append] at h

lemma gather_each (hs : ∀ out a b, step out a = .ok b ↔ base a b) :
    gather step [] as = .ok bs ↔ Forall₂ base as bs := by
  rw [gather_nil (fun _ => True) (fun out a b _ => by rw [hs, and_true]) (fun _ _ h => h) trivial, and_true]

lemma nodup_map_append (key : B → K) (out : List B) (b : B) :
    ((out ++ [b]).map key).Nodup ↔ (out.map key).Nodup ∧ key b ∉ out.map key := by
  rw [map_append, nodup_append_comm, map_singleton, singleton_append, nodup_cons, and_comm]

lemma gather_keyed {key : B → K} (hs : ∀ out a b, step out a = .ok b ↔ base a b ∧ key b ∉ out.map key) :
    gather step [] as = .ok bs ↔ Forall₂ base as bs ∧ (bs.map key).Nodup := by
  apply gather_nil fun bs => (bs.map key).Nodup
  · intro out a b ho
    rw [hs, nodup_map_append, and_iff_right ho]
  · intro out b h
    exact ((nodup_map_append key out b).mp h).1
  · exact nodup_nil

lemma gather_bounded {cost : B → ℕ} {key : B → K}
    (hs : ∀ out a b, step out a = .ok b ↔ base a b ∧ key b ∉ out.map key ∧
      (cost b = 0 ∨ total + (out.map cost).sum + cost b ≤ limit))
    (ht : total ≤ limit) :
    gather step [] as = .ok bs ↔ Forall₂ base as bs ∧ (bs.map key).Nodup ∧ total +
    (bs.map cost).sum ≤ limit := by
  apply gather_nil fun bs => (bs.map key).Nodup ∧ total + (bs.map cost).sum ≤ limit
  · rintro out a b ⟨hn, hsum⟩
    rw [hs, nodup_map_append, and_iff_right hn, map_append, sum_append, map_singleton, sum_singleton]
    refine and_congr_right fun _ => and_congr_right fun _ => ?_
    omega
  · rintro out b ⟨hn, hsum⟩
    rw [map_append, sum_append] at hsum
    exact ⟨((nodup_map_append key out b).mp hn).1, by omega⟩
  · exact ⟨nodup_nil, by simpa using ht⟩

end LeafWeb.Lib
