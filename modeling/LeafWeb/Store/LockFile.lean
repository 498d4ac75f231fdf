import LeafWeb.Lib.Transition
import Mathlib.Data.Fintype.Basic
import Mathlib.Data.Finset.Card

/-! The checkout lock of the filesystem backend on POSIX: one lock file whose identity is its inode. -/

namespace LeafWeb.Store.LockFile

open Lib.Transition Finset Function

-- the `(device, inode)` pair of `_file_identity`
abbrev Inode := ℕ × ℕ

inductive Phase
  | idle
  | opened (i : Inode)
  | locked (i : Inode)
  | inside (i : Inode)
  | reclaiming (i : Inode)
  | retired (i : Inode)
  deriving DecidableEq

def Phase.handle : Phase → Option Inode
  | .idle => none
  | .opened i | .locked i | .inside i | .reclaiming i | .retired i => some i

def Phase.lock : Phase → Option Inode
  | .idle | .opened _ => none
  | .locked i | .inside i | .reclaiming i | .retired i => some i

def Phase.section : Phase → Option Inode
  | .inside i | .reclaiming i => some i
  | _ => none

variable {n : ℕ}

structure Directory (n : ℕ) where
  path : Option Inode
  phase : Fin n → Phase

def Directory.empty (path : Option Inode) : Directory n := ⟨path, fun _ => .idle⟩

inductive Event (n : ℕ)
  | openFile (p : Fin n) (fresh : Inode)
  | tryOsLock (p : Fin n)
  | holdsTheLiveFile (p : Fin n)
  | reclaim (p : Fin n)
  | remove (p : Fin n)
  | removeFails (p : Fin n)
  | close (p : Fin n)

def Directory.set (d : Directory n) (p : Fin n) (ph : Phase) : Directory n :=
  { d with phase := update d.phase p ph }

def step (d : Directory n) : Event n → Bool × Directory n
  | .openFile p fresh =>
    match d.phase p, d.path with
    | .idle, some i => (true, d.set p (.opened i))
    | .idle, none =>
      -- an inode number comes back into use only once no handle refers to it
      if ∀ q, (d.phase q).handle ≠ some fresh then
        (true, { d.set p (.opened fresh) with path := some fresh })
      else (false, d)
    | _, _ => (false, d)
  | .tryOsLock p =>
    match d.phase p with
    | .opened i =>
      if ∀ q, (d.phase q).lock ≠ some i then (true, d.set p (.locked i)) else (false, d)
    | _ => (false, d)
  | .holdsTheLiveFile p =>
    match d.phase p with
    | .locked i => if d.path = some i then (true, d.set p (.inside i)) else (true, d.set p .idle)
    | _ => (false, d)
  | .reclaim p =>
    match d.phase p with
    | .inside i => if d.path = some i then (true, d.set p (.reclaiming i)) else (false, d)
    | _ => (false, d)
  | .remove p =>
    match d.phase p with
    -- `os.remove` takes the name away, whichever inode it names by now
    | .reclaiming i => (true, { d.set p (.retired i) with path := none })
    | _ => (false, d)
  | .removeFails p =>
    match d.phase p with
    | .reclaiming i => (true, d.set p (.inside i))
    | _ => (false, d)
  | .close p => (true, d.set p .idle)

def InSection (d : Directory n) (p : Fin n) : Prop := (d.phase p).section.isSome deriving Decidable

structure Inv (d : Directory n) : Prop where
  exclusive : ∀ p q i, (d.phase p).lock = some i → (d.phase q).lock = some i → p = q
  live : ∀ p i, (d.phase p).section = some i → d.path = some i

variable {i : Inode} {ph : Phase} {d : Directory n} {p : Fin n}

lemma section_lock (h : ph.section = some i) : ph.lock = some i := by
  cases ph <;> simp_all [Phase.section, Phase.lock]

lemma inv_empty (path : Option Inode) : Inv (Directory.empty (n := n) path) where
  exclusive p q i h := by simp [Directory.empty, Phase.lock] at h
  live p i h := by simp [Directory.empty, Phase.section] at h

section

variable (h : Inv d)
include h

lemma Inv.set (p : Fin n) (ph : Phase) (path : Option Inode)
    (hl : ∀ i q, ph.lock = some i → q ≠ p → (d.phase q).lock ≠ some i)
    (hs : ∀ i, ph.section = some i → path = some i)
    (hp : ∀ q i, q ≠ p → (d.phase q).section = some i → path = some i) : Inv { d.set p ph with path := path } where
  exclusive q r i hq hr := by
    by_cases hqp : q = p <;> by_cases hrp : r = p
    · rw [hqp, hrp]
    · subst hqp
      simp only [Directory.set, update_self, update_of_ne hrp] at hq hr
      exact absurd hr (hl i r hq hrp)
    · subst hrp
      simp only [Directory.set, update_self, update_of_ne hqp] at hq hr
      exact absurd hq (hl i q hr hqp)
    · simp only [Directory.set, update_of_ne hqp, update_of_ne hrp] at hq hr
      exact h.exclusive q r i hq hr
  live q i hq := by
    by_cases hqp : q = p
    · subst hqp
      simp only [Directory.set, update_self] at hq
      exact hs i hq
    · simp only [Directory.set, update_of_ne hqp] at hq
      exact hp q i hqp hq

lemma Inv.lock_elsewhere {q : Fin n} (hp : (d.phase p).lock = some i) (hq : q ≠ p) : (d.phase q).lock ≠ some i :=
  fun hl => hq (h.exclusive q p i hl hp)

lemma Inv.drop (p : Fin n) (hl : ph.lock = none) : Inv (d.set p ph) := by
  refine h.set p ph d.path (fun i _ hi => ?_) (fun i hi => ?_) (fun q i _ hq => h.live q i hq)
  · cases hl.symm.trans hi
  · cases (section_lock hi).symm.trans hl

lemma Inv.hold (hp : (d.phase p).lock = some i) (hl : ph.lock = some i)
    (hlv : d.path = some i) : Inv (d.set p ph) := by
  refine h.set p ph d.path (fun j q hj hq => ?_) (fun j hj => ?_) (fun q j _ hq => h.live q j hq)
  · cases hl.symm.trans hj
    exact h.lock_elsewhere hp hq
  · cases (section_lock hj).symm.trans hl
    exact hlv

lemma Inv.remove (hp : d.phase p = .reclaiming i) : Inv { d.set p (.retired i) with path := none } := by
  have hl : (d.phase p).lock = some i := by rw [hp]; rfl
  have hpt : d.path = some i := h.live p i (by rw [hp]; rfl)
  refine h.set p _ none (fun j q hj hq => ?_) (by simp [Phase.section]) ?_
  · cases hj
    exact h.lock_elsewhere hl hq
  intro q j hqp hq
  have hj : some i = some j := by rw [← hpt, h.live q j hq]
  cases hj
  exact absurd (section_lock hq) (h.lock_elsewhere hl hqp)

lemma Inv.step (e : Event n) : Inv (step d e).2 := by
  cases e with
  | openFile p fresh =>
    simp only [LockFile.step]
    split
    · exact h.drop p rfl
    next hp hd =>
      split
      · refine h.set p _ _ (by simp [Phase.lock]) (by simp [Phase.section]) ?_
        intro q i _ hq
        have hl := h.live q i hq
        cases hd.symm.trans hl
      · exact h
    · exact h
  | tryOsLock p =>
    simp only [LockFile.step]
    split
    · split
      next hf =>
        refine h.set p _ d.path ?_ (by simp [Phase.section]) (fun q i _ hq => h.live q i hq)
        intro j q hj _
        cases hj
        exact hf q
      · exact h
    · exact h
  | holdsTheLiveFile p =>
    simp only [LockFile.step]
    split
    next i hp =>
      split
      next hlv =>
        exact h.hold (by rw [hp]; rfl) rfl hlv
      · exact h.drop p rfl
    · exact h
  | reclaim p =>
    simp only [LockFile.step]
    split
    next i hp =>
      split
      next hlv =>
        exact h.hold (by rw [hp]; rfl) rfl hlv
      · exact h
    · exact h
  | remove p =>
    simp only [LockFile.step]
    split
    next i hp =>
      exact h.remove hp
    · exact h
  | removeFails p =>
    simp only [LockFile.step]
    split
    next i hp =>
      exact h.hold (by rw [hp]; rfl) rfl (h.live p i (by rw [hp]; rfl))
    · exact h
  | close p => exact h.drop p rfl

end

theorem at_most_one_in_section (path : Option Inode) (es : List (Event n)) :
    (univ.filter fun p => InSection (after step (Directory.empty path) es) p).card ≤ 1 := by
  refine card_le_one.mpr fun p hp q hq => ?_
  have h : Inv (after step (Directory.empty path) es) := invariant (inv_empty path) (fun _ e h => h.step e) es
  obtain ⟨i, hi⟩ := Option.isSome_iff_exists.mp (mem_filter.mp hp).2
  obtain ⟨j, hj⟩ := Option.isSome_iff_exists.mp (mem_filter.mp hq).2
  have hij : some i = some j := by rw [← h.live p i hi, h.live q j hj]
  cases hij
  exact h.exclusive p q i (section_lock hi) (section_lock hj)

-- a waiter parked on a retired inode leaves it and enters through a fresh one
example : InSection (n := 2) (after step (Directory.empty none)
    [.openFile 0 (0, 1), .openFile 1 (0, 2), .tryOsLock 0, .holdsTheLiveFile 0, .tryOsLock 1,
     .reclaim 0, .remove 0, .close 0, .tryOsLock 1, .holdsTheLiveFile 1, .openFile 1 (0, 2),
     .tryOsLock 1, .holdsTheLiveFile 1]) 1 := by decide

end LeafWeb.Store.LockFile
