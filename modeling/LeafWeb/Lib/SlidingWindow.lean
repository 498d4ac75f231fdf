import Mathlib.Data.List.Basic
import Mathlib.Order.Nat

namespace LeafWeb.Lib

open List

variable {span limit now later : ℕ} {log kept : List ℕ}

def recent (span now : ℕ) (kept : List ℕ) : List ℕ := kept.filter fun time => now < time + span

lemma recent_append (span now : ℕ) (l l' : List ℕ) :
    recent span now (l ++ l') = recent span now l ++ recent span now l' :=
  filter_append l l'

lemma recent_recent (h : now ≤ later) (l : List ℕ) :
    recent span later (recent span now l) = recent span later l := by
  unfold recent
  rw [filter_filter]
  apply filter_congr
  simp only [← Bool.decide_and, decide_eq_decide]
  omega

/-- No window of length `span` holds more than `limit` instants of `log`, and `kept` is enough of it to go on. -/
structure Windowed (span limit : ℕ) (log kept : List ℕ) : Prop where
  ordered : log.Pairwise (· ≤ ·)
  covered : ∀ time ∈ log, ∃ last ∈ kept, time ≤ last
  seen : ∀ now, (∀ time ∈ log, time ≤ now) → recent span now log = recent span now kept
  bounded : ∀ l : List ℕ, l.Sublist log → (∀ a ∈ l, ∀ b ∈ l, b < a + span) → l.length ≤ limit

lemma windowed_nil (span limit : ℕ) : Windowed span limit [] [] := by
  refine ⟨.nil, nofun, fun _ _ => rfl, fun l hl _ => ?_⟩
  rw [sublist_nil.mp hl]
  exact limit.zero_le

lemma Windowed.append (h : Windowed span limit log kept) (hn : ∀ time ∈ kept, time ≤ now)
    (hr : (recent span now kept).length < limit) :
    Windowed span limit (log ++ [now]) (recent span now kept ++ [now]) := by
  have hlog : ∀ time ∈ log, time ≤ now := by
    intro time htm
    obtain ⟨last, hls, hle⟩ := h.covered time htm
    exact hle.trans (hn last hls)
  refine ⟨?_, ?_, ?_, ?_⟩
  · exact pairwise_append.mpr ⟨h.ordered, pairwise_singleton _ _, by simpa using hlog⟩
  · intro time htm
    refine ⟨now, by simp, ?_⟩
    rcases mem_append.mp htm with htm | htm
    · exact hlog time htm
    · exact (mem_singleton.mp htm).le
  · intro later hlt
    have hle : now ≤ later := hlt now (by simp)
    rw [recent_append, recent_append, recent_recent hle, h.seen later fun time ht => (hlog time ht).trans hle]
  · intro l hl hc
    obtain ⟨l₁, l₂, rfl, hl₁, hl₂⟩ := sublist_append_iff.mp hl
    rcases l₂ with _ | ⟨a, l₂⟩
    · rw [append_nil] at hc ⊢
      exact h.bounded l₁ hl₁ hc
    obtain ⟨rfl, rfl⟩ : a = now ∧ l₂ = [] := by simpa using hl₂
    have hl : recent span a l₁ = l₁ := by
      apply filter_eq_self.mpr
      intro time htm
      simpa using hc time (by simp [htm]) a (by simp)
    have hs : l₁.Sublist (recent span a kept) := by
      rw [← hl, ← h.seen a hlog]
      exact hl₁.filter _
    rw [length_append]
    exact Nat.succ_le_of_lt (hs.length_le.trans_lt hr)

end LeafWeb.Lib
