import Mathlib.Logic.Basic

/-! Procedures over a state that may raise, with rules of pre- and postconditions. -/

namespace LeafWeb.Lib.Procedure

abbrev Proc (σ ε : Type) := ExceptT ε (StateM σ)

variable {σ ε α β : Type}

lemma except_bind_ok {b : β} {x : Except ε α} {f : α → Except ε β} (h : x >>= f = .ok b) : ∃ a, x = .ok a ∧
    f a = .ok b := by
  cases x with
  | error e => cases h
  | ok a => exact ⟨a, rfl, h⟩

def exec (p : Proc σ ε α) (s : σ) : Except ε α × σ := StateT.run (ExceptT.run p) s

def read (f : σ → Except ε α) : Proc σ ε α := fun s => (f s, s)

def refuse (c : σ → Prop) [DecidablePred c] (e : σ → ε) : Proc σ ε Unit :=
  read fun s => if c s then .error (e s) else .ok ()

@[simp] lemma exec_read (f : σ → Except ε α) (s : σ) : exec (read f) s = (f s, s) := rfl

lemma exec_bind (p : Proc σ ε α) (f : α → Proc σ ε β) (s : σ) :
    exec (p >>= f) s =
      match exec p s with
      | (.ok a, t) => exec (f a) t
      | (.error e, t) => (.error e, t) := by
  change StateT.run (ExceptT.run (p >>= f)) s = _
  rw [ExceptT.run_bind, StateT.run_bind]
  unfold exec
  rcases StateT.run (ExceptT.run p) s with ⟨_ | _, t⟩ <;> rfl

variable {a : α} {t s : σ} {g : σ → Except ε α} {e : σ → ε} {c : σ → Prop}

lemma exec_bind_ok {p : Proc σ ε α} {f : α → Proc σ ε β} (h : exec p s = (.ok a, t)) :
    exec (p >>= f) s = exec (f a) t := by
  rw [exec_bind, h]

lemma exec_read_bind {f : α → Proc σ ε β} (h : g s = .ok a) : exec (read g >>= f) s = exec (f a) s :=
  exec_bind_ok (by rw [exec_read, h])

lemma exec_tryCatch (p : Proc σ ε α) (f : ε → Proc σ ε α) (s : σ) :
    exec (tryCatch p f) s =
      match exec p s with
      | (.ok a, t) => (.ok a, t)
      | (.error e, t) => exec (f e) t := by
  have hr : ExceptT.run (tryCatch p f) = ExceptT.run p >>= fun r =>
      match r with
      | .ok a => pure (.ok a)
      | .error e => ExceptT.run (f e) := rfl
  unfold exec
  rw [hr, StateT.run_bind]
  rcases StateT.run (ExceptT.run p) s with ⟨_ | _, t⟩ <;> rfl

lemma exec_refuse_pos [DecidablePred c] (h : c s) : exec (refuse c e) s = (.error (e s), s) := by
  simp [refuse, h]

lemma exec_refuse_neg [DecidablePred c] (h : ¬ c s) : exec (refuse c e) s = (.ok (), s) := by
  simp [refuse, h]

def Triple (s : σ) (p : Proc σ ε α) (Q : α → σ → Prop) (E : ε → σ → Prop) : Prop :=
  match exec p s with
  | (.ok a, t) => Q a t
  | (.error e, t) => E e t

variable {s : σ} {p : Proc σ ε α} {f : α → Proc σ ε β} {Q R : α → σ → Prop} {E F : ε → σ → Prop}
  {S : β → σ → Prop}

lemma Triple.ok (h : Triple s p Q E) (he : exec p s = (.ok a, t)) : Q a t := by
  simpa [Triple, he] using h

lemma Triple.error {e : ε} (h : Triple s p Q E) (he : exec p s = (.error e, t)) : E e t := by
  simpa [Triple, he] using h

lemma triple_pure (h : Q a s) : Triple s (pure a : Proc σ ε α) Q E := h

lemma triple_read (hok : ∀ a, g s = .ok a → Q a s) (he : ∀ e, g s = .error e → E e s) : Triple s (read g) Q E := by
  simp only [Triple, exec_read]
  cases hg : g s with
  | ok a => exact hok a hg
  | error e => exact he e hg

lemma triple_bind (hp : Triple s p R E) (hf : ∀ a t, R a t → Triple t (f a) S E) : Triple s (p >>= f) S E := by
  simp only [Triple, exec_bind] at hp ⊢
  generalize exec p s = x at hp ⊢
  rcases x with ⟨e | a, t⟩
  · exact hp
  · exact hf a t hp

lemma Triple.mono (h : Triple s p Q E) (hq : ∀ a t, Q a t → R a t) (he : ∀ e t, E e t → F e t) :
    Triple s p R F := by
  simp only [Triple] at h ⊢
  generalize exec p s = x at h ⊢
  rcases x with ⟨e | a, t⟩
  · exact he e t h
  · exact hq a t h

lemma triple_map {g : α → β} (hp : Triple s p (fun a t => S (g a) t) E) : Triple s (g <$> p) S E := by
  exact triple_bind hp (fun a t ha => triple_pure ha)

lemma triple_tryCatch {c : ε → Proc σ ε α} (hp : Triple s p Q F)
    (hc : ∀ e t, F e t → Triple t (c e) Q E) : Triple s (tryCatch p c) Q E := by
  simp only [Triple, exec_tryCatch] at hp ⊢
  generalize exec p s = x at hp ⊢
  rcases x with ⟨e | a, t⟩
  · exact hc e t hp
  · exact hp

lemma triple_read_bind (he : ∀ e, g s = .error e → E e s)
    (hok : ∀ a, g s = .ok a → Triple s (f a) S E) : Triple s (read g >>= f) S E :=
  triple_bind (R := fun a t => g s = .ok a ∧ t = s)
    (triple_read (fun _ ha => ⟨ha, rfl⟩) he)
    (fun a t h => by
      obtain ⟨ha, rfl⟩ := h
      exact hok a ha)

lemma triple_refuse_bind [DecidablePred c] {f : Unit → Proc σ ε β} (he : c s → E (e s) s)
    (hok : ¬ c s → Triple s (f ()) S E) : Triple s (refuse c e >>= f) S E := by
  by_cases h : c s
  · simpa [Triple, exec_bind, exec_refuse_pos h] using he h
  · simpa [Triple, exec_bind, exec_refuse_neg h] using hok h

end LeafWeb.Lib.Procedure
