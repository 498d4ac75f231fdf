import Mathlib.Data.List.Induction

/-! Deterministic transition systems that answer every event, and induction over their runs. -/

namespace LeafWeb.Lib.Transition

open List

variable {σ ε ο : Type} (step : σ → ε → ο × σ)

def after (s : σ) : List ε → σ
  | [] => s
  | e :: es => after (step s e).2 es

def trace (s : σ) : List ε → List (ε × ο)
  | [] => []
  | e :: es => (e, (step s e).1) :: trace (step s e).2 es

def Along (C : σ → ε → Prop) (s : σ) : List ε → Prop
  | [] => True
  | e :: es => C s e ∧ Along C (step s e).2 es

instance decidableAlong (C : σ → ε → Prop) [∀ s e, Decidable (C s e)] :
    (s : σ) → (es : List ε) → Decidable (Along step C s es)
  | _, [] => isTrue trivial
  | s, e :: es =>
    have := decidableAlong C (step s e).2 es
    inferInstanceAs (Decidable (C s e ∧ Along step C (step s e).2 es))

variable {step} {C D : σ → ε → Prop}

@[simp] lemma after_nil (s : σ) : after step s [] = s := rfl

@[simp] lemma after_cons (s : σ) (e : ε) (es : List ε) : after step s (e :: es) = after step (step s e).2 es := rfl

lemma after_append (s : σ) (es fs : List ε) : after step s (es ++ fs) = after step (after step s es) fs := by
  induction es generalizing s with
  | nil => rfl
  | cons e es ih => exact ih _

lemma after_concat (s : σ) (es : List ε) (e : ε) : after step s (es ++ [e]) = (step (after step s es) e).2 := by
  rw [after_append, after_cons, after_nil]

@[simp] lemma trace_nil (s : σ) : trace step s [] = [] := rfl

@[simp] lemma trace_cons (s : σ) (e : ε) (es : List ε) :
    trace step s (e :: es) = (e, (step s e).1) :: trace step (step s e).2 es := rfl

lemma trace_append (s : σ) (es fs : List ε) :
    trace step s (es ++ fs) = trace step s es ++ trace step (after step s es) fs := by
  induction es generalizing s with
  | nil => rfl
  | cons e es ih => simp [ih]

lemma trace_events (s : σ) (es : List ε) : (trace step s es).map Prod.fst = es := by
  induction es generalizing s with
  | nil => rfl
  | cons e es ih => rw [trace_cons, map_cons, ih]

lemma along_append (s : σ) (es fs : List ε) :
    Along step C s (es ++ fs) ↔ Along step C s es ∧ Along step C (after step s es) fs := by
  induction es generalizing s with
  | nil => simp [Along]
  | cons e es ih => simp [Along, ih, and_assoc]

variable {es : List ε} {s : σ} {I : σ → Prop}

lemma Along.mono (hcd : ∀ s e, C s e → D s e) (h : Along step C s es) : Along step D s es := by
  induction es generalizing s with
  | nil => trivial
  | cons e es ih => exact ⟨hcd _ _ h.1, ih h.2⟩

lemma Along.and (hc : Along step C s es) (hd : Along step D s es) :
    Along step (fun s e => C s e ∧ D s e) s es := by
  induction es generalizing s with
  | nil => trivial
  | cons e es ih => exact ⟨⟨hc.1, hd.1⟩, ih hc.2 hd.2⟩

lemma along_of_prefixes (h : ∀ pre e suf, es = pre ++ e :: suf → C (after step s pre) e) : Along step C s es := by
  induction es generalizing s with
  | nil => trivial
  | cons e es ih =>
    exact ⟨h [] e es rfl, ih fun pre f suf hes => h (e :: pre) f suf (by rw [hes]; rfl)⟩

lemma along_of_forall (hc : ∀ e ∈ es, ∀ t, C t e) : Along step C s es :=
  along_of_prefixes fun pre e suf h => hc e (by simp [h]) _

lemma exists_acquired {P : σ → Prop} (h0 : ¬ P s) (h : P (after step s es)) :
    ∃ pre e suf, es = pre ++ e :: suf ∧ ¬ P (after step s pre) ∧ P (step (after step s pre) e).2 := by
  induction es generalizing s with
  | nil => exact absurd h h0
  | cons e es ih =>
    by_cases hp : P (step s e).2
    · exact ⟨[], e, es, rfl, h0, hp⟩
    · obtain ⟨pre, f, suf, rfl, hn, hf⟩ := ih hp h
      exact ⟨e :: pre, f, suf, rfl, hn, hf⟩

lemma history_along {I : List (ε × ο) → σ → Prop} (h0 : I [] s)
    (hs : ∀ h t e, I h t → C t e → I (h ++ [(e, (step t e).1)]) (step t e).2) (es : List ε)
    (hc : Along step C s es) : I (trace step s es) (after step s es) := by
  have hg : ∀ (es : List ε) (h : List (ε × ο)) (t : σ), I h t → Along step C t es →
      I (h ++ trace step t es) (after step t es) := by
    intro es
    induction es with
    | nil => intro h t hi _; simpa using hi
    | cons e es ih =>
      intro h t hi ha
      have hh := ih _ _ (hs h t e hi ha.1) ha.2
      simpa [singleton_append] using hh
  simpa using hg es [] s h0 hc

lemma history {I : List (ε × ο) → σ → Prop} (h0 : I [] s)
    (hs : ∀ h t e, I h t → I (h ++ [(e, (step t e).1)]) (step t e).2) (es : List ε) :
    I (trace step s es) (after step s es) :=
  history_along (C := fun _ _ => True) h0 (fun h t e hi _ => hs h t e hi) es (along_of_forall fun _ _ _ => trivial)

lemma invariant_along (h0 : I s) (hs : ∀ t e, I t → C t e → I (step t e).2) (es : List ε)
    (hc : Along step C s es) : I (after step s es) :=
  history_along (I := fun _ => I) h0 (fun _ t e => hs t e) es hc

lemma invariant (h0 : I s) (hs : ∀ t e, I t → I (step t e).2) (es : List ε) : I (after step s es) :=
  history (I := fun _ => I) h0 (fun _ t e => hs t e) es

lemma run_along {I : List ε → Prop} (h0 : I [])
    (hs : ∀ es e, I es → C (after step s es) e → I (es ++ [e])) (es : List ε) (hc : Along step C s es) : I es := by
  induction es using reverseRecOn with
  | nil => exact h0
  | append_singleton es e ih =>
    obtain ⟨hes, he⟩ := (along_append s es [e]).mp hc
    exact hs es e (ih hes) he.1

lemma related_along {R : σ → σ → Prop} (hr : ∀ t, R t t)
    (ht : ∀ t u v, R t u → R u v → R t v) (hs : ∀ t e, I t → C t e → I (step t e).2)
    (hrel : ∀ t e, I t → C t e → R t (step t e).2) (h0 : I s) (es : List ε)
    (hc : Along step C s es) : R s (after step s es) := by
  induction es generalizing s with
  | nil => exact hr s
  | cons e es ih => exact ht _ _ _ (hrel s e h0 hc.1) (ih (hs s e h0 hc.1) hc.2)

lemma related {R : σ → σ → Prop} (hr : ∀ t, R t t) (ht : ∀ t u v, R t u → R u v → R t v)
    (hs : ∀ t e, I t → I (step t e).2) (hrel : ∀ t e, I t → R t (step t e).2) (h0 : I s)
    (es : List ε) : R s (after step s es) :=
  related_along (C := fun _ _ => True) hr ht (fun t e hi _ => hs t e hi)
    (fun t e hi _ => hrel t e hi) h0 es (along_of_forall fun _ _ _ => trivial)

section

variable {τ : Type} {step' : τ → ε → ο × τ} {f : σ → τ} (hf : ∀ s e, f (step s e).2 = (step' (f s) e).2)

include hf

lemma after_map (s : σ) (es : List ε) : f (after step s es) = after step' (f s) es := by
  induction es generalizing s with
  | nil => rfl
  | cons e es ih => rw [after_cons, after_cons, ih, hf]

end

end LeafWeb.Lib.Transition
