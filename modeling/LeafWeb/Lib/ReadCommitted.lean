import LeafWeb.Lib.Transition

/-! Statements on one keyed row at READ COMMITTED: an update looks for its row in the snapshot of its
beginning and checks its condition again on the version it locks. -/

namespace LeafWeb.Lib.ReadCommitted

section

variable {Row : Type} {current snapshot : Option Row}

/-- The row an `UPDATE .. WHERE cond RETURNING *` returns. -/
def updated (cond : Row → Bool) (set : Row → Row) (snapshot current : Option Row) : Option Row :=
  match snapshot, current with
  | some seen, some row => if cond seen && cond row then some (set row) else none
  | _, _ => none

lemma updated_eq_some {row' : Row} {cond : Row → Bool} {set : Row → Row}
    (h : updated cond set snapshot current = some row') :
    ∃ row, current = some row ∧ cond row = true ∧ row' = set row := by
  cases snapshot with
  | none => cases h
  | some seen =>
    cases current with
    | none => cases h
    | some row =>
      simp only [updated, Bool.and_eq_true, Option.ite_none_right_eq_some, Option.some.injEq] at h
      exact ⟨row, rfl, h.1.2, h.2.symm⟩

end

variable {Key Row Call Env Answer : Type}

structure Flight (Row Call : Type) where
  call : Call
  snapshot : Option Row

structure Server (Key Row Call : Type) where
  rows : Key → Option Row
  flights : List (Flight Row Call)

def Server.empty : Server Key Row Call := ⟨fun _ => none, []⟩

inductive Event (Call Env : Type)
  | begin (call : Call)
  | finish (flight : ℕ) (env : Env)

variable [DecidableEq Key] (key : Call → Key)
  (execute : Call → Env → Option Row → Option Row → Answer × Option Row)

def step (s : Server Key Row Call) : Event Call Env → Option (Call × Answer) × Server Key Row Call
  | .begin call => (none, { s with flights := s.flights ++ [⟨call, s.rows (key call)⟩] })
  | .finish i env =>
    match s.flights[i]? with
    | none => (none, s)
    | some flight =>
      let done := execute flight.call env flight.snapshot (s.rows (key flight.call))
      (some (flight.call, done.1),
        { rows := Function.update s.rows (key flight.call) done.2, flights := s.flights.eraseIdx i })

lemma step_cases (s : Server Key Row Call) (e : Event Call Env) (k : Key) :
    ((step key execute s e).1 = none ∧ (step key execute s e).2.rows k = s.rows k) ∨
    (∃ call answer, (step key execute s e).1 = some (call, answer) ∧ key call ≠ k ∧
      (step key execute s e).2.rows k = s.rows k) ∨
    (∃ call env snapshot, key call = k ∧
      (step key execute s e).1 = some (call, (execute call env snapshot (s.rows k)).1) ∧
      (step key execute s e).2.rows k = (execute call env snapshot (s.rows k)).2) := by
  cases e with
  | begin call => exact .inl ⟨rfl, rfl⟩
  | finish i env =>
    cases hf : s.flights[i]? with
    | none => exact .inl (by simp [step, hf])
    | some flight =>
      by_cases hk : key flight.call = k
      · subst hk
        exact .inr (.inr ⟨flight.call, env, flight.snapshot, rfl, by simp [step, hf]⟩)
      · have hr := Function.update_of_ne (Ne.symm hk)
          (execute flight.call env flight.snapshot (s.rows (key flight.call))).2 s.rows
        exact .inr (.inl ⟨flight.call,
          (execute flight.call env flight.snapshot (s.rows (key flight.call))).1,
          by simp [step, hf], hk, by simp [step, hf, hr]⟩)

end LeafWeb.Lib.ReadCommitted
