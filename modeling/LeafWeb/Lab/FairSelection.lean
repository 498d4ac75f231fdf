import LeafWeb.Lab.RunStore
import LeafWeb.Lib.Layers

namespace LeafWeb.Lab

open Lib List Nat Dict

def RunRow.age (r : RunRow) : ℤ ×ₗ String ×ₗ String := toLex (r.createdAt, toLex (r.runId, r.tenantId))

def RunRow.waiting (now : ℤ) (r : RunRow) : Bool :=
  r.state = .queued || r.state = .running && r.leaseExpiresAt.any (· ≤ now)

abbrev ofTenant (runs : List RunRow) (tenant : String) : List RunRow := share RunRow.tenantId tenant runs

def offer (slots : String → ℕ) (revisions : List String) (queues : Dict String (List RunRow))
    (row : RunRow) : Dict String (List RunRow) :=
  if 0 < slots row.tenantId then
    let queue := queues.line row.tenantId
    queues.set row.tenantId
      (if row.pins.opsRevision ∈ revisions ∧ queue.length < slots row.tenantId then queue ++ [row] else queue)
  else queues

namespace RunStore

variable (s : RunStore) (limit : ℤ) (revisions : List String) (now : ℤ)

def slots (tenant : String) : ℕ := maxActivePerTenant - activeRuns s tenant now

def waiting : List RunRow := sortOn RunRow.age (s.runs.rows.filter (RunRow.waiting now))

def queues : Dict String (List RunRow) := (s.waiting now).foldl (offer (s.slots now) revisions) .empty

/-- The clock stands still between the two queries. -/
def claimable : Except RunError (List RunRow) := do
  refuse (limit < 0) (.valueError "invalid_lab_queue_limit")
  forM revisions pin
  if revisions = [] ∨ limit = 0 then return []
  else
    -- A layer that is not empty adds a run, so there are at most as many of them as the limit.
    return layers (sortOn RunRow.age) (s.queues revisions now) limit.toNat limit.toNat 0 []

def eligible (tenant : String) : List RunRow :=
  (s.waiting now).filter fun r => r.tenantId = tenant && decide (r.pins.opsRevision ∈ revisions)

end RunStore

lemma get_offer (slots : String → ℕ) (revisions : List String) (rows : List RunRow) (tenant : String) :
    (rows.foldl (offer slots revisions) .empty).line tenant =
      (rows.filter fun r => r.tenantId = tenant && decide (r.pins.opsRevision ∈ revisions)).take
        (slots tenant) := by
  induction rows using reverseRecOn with
  | nil => simp [line]
  | append_singleton rows row ih =>
    rw [foldl_append, foldl_cons, foldl_nil, filter_append, offer]
    by_cases ht : tenant = row.tenantId
    · subst ht
      generalize hq : (rows.filter fun r => r.tenantId = row.tenantId &&
        decide (r.pins.opsRevision ∈ revisions)) = queue at ih ⊢
      have hl : (queue.take (slots row.tenantId)).length = min (slots row.tenantId) queue.length := length_take
      split_ifs with hs
      · rw [ih, line, get_set, if_pos rfl, Option.getD_some, hl]
        split_ifs with ha
        · have hsh : queue.length < slots row.tenantId := by omega
          rw [take_of_length_le hsh.le, take_of_length_le (by simp [ha.1]; omega)]
          simp [ha.1]
        by_cases hr : row.pins.opsRevision ∈ revisions
        · have hf : slots row.tenantId ≤ queue.length := by
            by_contra h
            exact ha ⟨hr, by omega⟩
          rw [take_append_of_le_length hf]
        · simp [hr]
      · simp [ih, Nat.eq_zero_of_not_pos hs]
    · have ho : ([row].filter fun r =>
          r.tenantId = tenant && decide (r.pins.opsRevision ∈ revisions)) = [] := by simp [Ne.symm ht]
      rw [ho, append_nil, ← ih]
      split_ifs with hs
      · rw [line, get_set, if_neg ht, line]
      · rfl

lemma forM_pin (revisions : List String) : forM revisions pin = .ok () ↔ ∀ r ∈ revisions, pin r = .ok () := by
  induction revisions with
  | nil => simp
  | cons r revisions ih =>
    rw [forM_cons, bind_eq_ok, forall_mem_cons, ← ih]
    exact ⟨fun ⟨_, h⟩ => h, fun h => ⟨(), h⟩⟩

namespace RunStore

variable {s : RunStore} {limit : ℤ} {revisions : List String} {now : ℤ} {tenant : String}

lemma mem_eligible {r : RunRow} :
    r ∈ s.eligible revisions now tenant ↔
      (r ∈ s.runs.rows ∧ r.waiting now) ∧ r.tenantId = tenant ∧ r.pins.opsRevision ∈ revisions := by
  simp [eligible, waiting]

lemma nodup_eligible (s : RunStore) (revisions : List String) (now : ℤ) (tenant : String) :
    (s.eligible revisions now tenant).Nodup :=
  (((sortOn_perm _ _).nodup_iff).mpr ((Nodup.of_map _ s.runs.distinct).filter _)).filter _

variable {runs : List RunRow}

lemma claimable_eq_ok : s.claimable limit revisions now = .ok runs ↔
    0 ≤ limit ∧ (∀ r ∈ revisions, pin r = .ok ()) ∧
      (if revisions = [] ∨ limit = 0 then []
        else layers (sortOn RunRow.age) (s.queues revisions now) limit.toNat limit.toNat 0 []) = runs := by
  rw [claimable, bind_refuse, not_lt, bind_eq_ok, ← forM_pin]
  refine and_congr_right fun _ => ⟨fun ⟨_, hp, h⟩ => ⟨hp, ?_⟩, fun ⟨hp, h⟩ => ⟨(), hp, ?_⟩⟩
  · split_ifs at h ⊢ <;> exact pure_eq_ok.mp h
  · split_ifs at h ⊢ <;> exact pure_eq_ok.mpr h

lemma layered_claimable (h : s.claimable limit revisions now = .ok runs) :
    Layered RunRow.tenantId (fun t => (s.eligible revisions now t).take (s.slots now t)) limit.toNat runs := by
  have hg : ∀ t, (s.queues revisions now).line t =
      (s.eligible revisions now t).take (s.slots now t) := get_offer _ _ _
  obtain ⟨-, -, rfl⟩ := claimable_eq_ok.mp h
  split_ifs with hn
  · refine ⟨zero_le _, ⟨0, fun _ => .inl rfl⟩, fun hlt t => ?_⟩
    have hl : limit ≠ 0 := by
      rintro rfl
      exact lt_irrefl 0 hlt
    simp [eligible, hn.resolve_right hl, share]
  · rw [← funext hg]
    refine layered_layers ?_ (sortOn_perm _) _ _ (zero_le _) (le_refl _) fun _ => rfl
    intro p hp r hr
    have hp' : (s.queues revisions now).get p.1 = some p.2 := get_some.mpr hp
    have hq := hg p.1
    rw [line, hp', Option.getD_some] at hq
    exact (mem_eligible.mp (mem_of_mem_take (hq ▸ hr))).2.1

def Served (s : RunStore) (revisions : List String) (now : ℤ) (runs : List RunRow) (tenant : String) : Prop :=
  ofTenant runs tenant = s.eligible revisions now tenant ∨ (ofTenant runs tenant).length = s.slots now tenant

lemma served_of_all (h : ofTenant runs tenant =
    (s.eligible revisions now tenant).take (s.slots now tenant)) : s.Served revisions now runs tenant := by
  rcases le_total (s.eligible revisions now tenant).length (s.slots now tenant) with hle | hle
  · exact .inl (by rw [h, take_of_length_le hle])
  · exact .inr (by rw [h, length_take_of_le hle])

theorem claimable_fair (s : RunStore) (limit : ℤ) (revisions : List String) (now : ℤ) :
    ((∃ runs, s.claimable limit revisions now = .ok runs) ↔ 0 ≤ limit ∧ ∀ r ∈ revisions, pin r = .ok ()) ∧
    ∀ runs, s.claimable limit revisions now = .ok runs →
      runs.Nodup ∧ runs.length ≤ limit ∧
      (∀ r ∈ runs, r ∈ s.runs.rows ∧ r.waiting now ∧ r.pins.opsRevision ∈ revisions) ∧
      (∀ t, ∃ n ≤ s.slots now t, ofTenant runs t = (s.eligible revisions now t).take n) ∧
      (∀ t t', (ofTenant runs t').length + 1 < (ofTenant runs t).length → s.Served revisions now runs t') ∧
      (runs.length < limit → ∀ t, s.Served revisions now runs t) := by
  constructor
  · simp [claimable_eq_ok]
  intro runs h
  have hl := layered_claimable h
  have hlm := (claimable_eq_ok.mp h).1
  refine ⟨hl.nodup fun t => (s.nodup_eligible revisions now t).sublist (take_sublist _ _), ?_, ?_, ?_, ?_, ?_⟩
  · have := hl.length_le
    omega
  · intro r hr
    have hm : r ∈ ofTenant runs r.tenantId := by simp [ofTenant, share, hr]
    have hr' := mem_eligible.mp ((take_sublist _ _).subset ((hl.sublist _).subset hm))
    exact ⟨hr'.1.1, hr'.1.2, hr'.2.2⟩
  · intro t
    obtain ⟨depth, hc⟩ := hl.cut
    rcases hc t with ht | ht <;> exact ⟨_, min_le_right _ _, ht.trans take_take⟩
  · exact fun t t' hlt => served_of_all (hl.behind hlt)
  · exact fun hlt t => served_of_all (hl.all (by omega) t)

theorem two_tenants_offered :
    let run := fun tenant runId => RunRow.queued tenant runId ⟨"d", 1, "g", "r", "ops", "i", "a", "b"⟩ none 0
    let s : RunStore := ⟨⟨[run "t" "1", run "t" "2", run "u" "3"], by decide⟩, .empty⟩
    ∃ runs, s.claimable 2 ["ops"] 0 = .ok runs ∧ runs.Nodup ∧ runs.length ≤ 2 := by
  intro run s
  obtain ⟨runs, h⟩ := (claimable_fair s 2 ["ops"] 0).1.mpr (by decide)
  obtain ⟨hn, hl, -⟩ := (claimable_fair s 2 ["ops"] 0).2 runs h
  exact ⟨runs, h, hn, by omega⟩

end RunStore

end LeafWeb.Lab
