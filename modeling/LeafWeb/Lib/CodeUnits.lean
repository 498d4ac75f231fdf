import Mathlib.Data.UInt

namespace LeafWeb.Lib

open List Bool

def isHigh (u : UInt16) : Bool := 0xD800 ≤ u.toNat && u.toNat ≤ 0xDBFF

def isLow (u : UInt16) : Bool := 0xDC00 ≤ u.toNat && u.toNat ≤ 0xDFFF

def isSurrogate (c : ℕ) : Bool := 0xD800 ≤ c && c ≤ 0xDFFF

def codePoints : List UInt16 → List ℕ
  | [] => []
  | [u] => [u.toNat]
  | u :: v :: us =>
    if isHigh u && isLow v then
      (0x10000 + (u.toNat - 0xD800) * 0x400 + (v.toNat - 0xDC00)) :: codePoints us
    else u.toNat :: codePoints (v :: us)

def unitsOf (c : ℕ) : List UInt16 :=
  if c < 0x10000 then [UInt16.ofNat c]
  else [UInt16.ofNat (0xD800 + (c - 0x10000) / 0x400), UInt16.ofNat (0xDC00 + (c - 0x10000) % 0x400)]

def units (s : String) : List UInt16 := s.toList.flatMap fun c => unitsOf c.toNat

def bigEndian (u : UInt16) : List ℕ := [u.toNat / 256, u.toNat % 256]

def wellFormed : List UInt16 → Bool
  | [] => true
  | u :: us =>
    if isHigh u then
      match us with
      | [] => false
      | v :: us => isLow v && wellFormed us
    else if isLow u then false
    else wellFormed us

def lexLe : List ℕ → List ℕ → Bool
  | [], _ => true
  | _ :: _, [] => false
  | a :: as, b :: bs => a < b || (a = b && lexLe as bs)

variable {us vs : List UInt16}

private lemma unitsOf_toNat (u : UInt16) : unitsOf u.toNat = [u] := by
  have h : u.toNat < 65536 := u.toNat_lt
  rw [unitsOf, if_pos h, UInt16.ofNat_toNat]

private lemma unitsOf_pair {u v : UInt16} (hu : isHigh u) (hv : isLow v) :
    unitsOf (0x10000 + (u.toNat - 0xD800) * 0x400 + (v.toNat - 0xDC00)) = [u, v] := by
  simp only [isHigh, isLow, and_eq_true, decide_eq_true_eq] at hu hv
  have h1 : 0xD800 + (0x10000 + (u.toNat - 0xD800) * 0x400 + (v.toNat - 0xDC00) - 0x10000) / 0x400 =
      u.toNat := by omega
  have h2 : 0xDC00 + (0x10000 + (u.toNat - 0xD800) * 0x400 + (v.toNat - 0xDC00) - 0x10000) % 0x400 =
      v.toNat := by omega
  rw [unitsOf, if_neg (by omega), h1, h2, UInt16.ofNat_toNat, UInt16.ofNat_toNat]

lemma flatMap_unitsOf_codePoints (us : List UInt16) : (codePoints us).flatMap unitsOf = us := by
  induction us using codePoints.induct with
  | case1 => rfl
  | case2 u => simp [codePoints, unitsOf_toNat]
  | case3 u v us h ih =>
    obtain ⟨hu, hv⟩ := and_eq_true_iff.mp h
    rw [codePoints, if_pos h, flatMap_cons, ih, unitsOf_pair hu hv]
    rfl
  | case4 u v us h ih =>
    rw [codePoints, if_neg h, flatMap_cons, ih, unitsOf_toNat]
    rfl

lemma codePoints_injective (h : codePoints us = codePoints vs) : us = vs := by
  rw [← flatMap_unitsOf_codePoints us, h, flatMap_unitsOf_codePoints]

lemma codePoints_lt {c : ℕ} (h : c ∈ codePoints us) : c < 0x110000 := by
  induction us using codePoints.induct with
  | case1 => simp [codePoints] at h
  | case2 u =>
    have hu : u.toNat < 65536 := u.toNat_lt
    simp only [codePoints, mem_singleton] at h
    omega
  | case3 u v us hp ih =>
    rw [codePoints, if_pos hp, mem_cons] at h
    rcases h with h | h
    · simp only [isHigh, isLow, and_eq_true, decide_eq_true_eq] at hp
      omega
    · exact ih h
  | case4 u v us hp ih =>
    rw [codePoints, if_neg hp, mem_cons] at h
    rcases h with rfl | h
    · have hu : u.toNat < 65536 := u.toNat_lt
      omega
    · exact ih h

lemma wellFormed_iff : wellFormed us ↔ ∀ c ∈ codePoints us, isSurrogate c = false := by
  have hun : ∀ u : UInt16, isHigh u = false → isLow u = false → isSurrogate u.toNat = false := by
    simp only [isHigh, isLow, isSurrogate, and_eq_false_iff, decide_eq_false_iff_not] at *
    omega
  have hh : ∀ u : UInt16, isHigh u → isSurrogate u.toNat := by
    simp only [isHigh, isSurrogate, and_eq_true, decide_eq_true_eq] at *
    omega
  have hlow : ∀ u : UInt16, isLow u → isSurrogate u.toNat := by
    simp only [isLow, isSurrogate, and_eq_true, decide_eq_true_eq] at *
    omega
  induction us using codePoints.induct with
  | case1 => simp [wellFormed, codePoints]
  | case2 u =>
    simp only [codePoints, wellFormed]
    split_ifs with h1 h2
    · simp [hh u h1]
    · simp [hlow u h2]
    · simp [hun u (eq_false_iff.mpr h1) (eq_false_iff.mpr h2)]
  | case3 u v us h ih =>
    obtain ⟨hu, hv⟩ := and_eq_true_iff.mp h
    have hp : isSurrogate (0x10000 + (u.toNat - 0xD800) * 0x400 + (v.toNat - 0xDC00)) = false := by
      simp only [isSurrogate, and_eq_false_iff, decide_eq_false_iff_not]
      omega
    have hr : wellFormed us = true ↔ ∀ c ∈ codePoints us, isSurrogate c = false := ih
    rw [codePoints, if_pos h, forall_mem_cons, ← hr, wellFormed, if_pos hu, hv, hp]
    simp
  | case4 u v us h ih =>
    have hr : wellFormed (v :: us) = true ↔ ∀ c ∈ codePoints (v :: us), isSurrogate c = false := ih
    rw [codePoints, if_neg h, forall_mem_cons, ← hr, wellFormed]
    by_cases hu : isHigh u
    · have hv : isLow v = false := by
        rw [hu, Bool.true_and] at h
        exact eq_false_iff.mpr h
      rw [if_pos hu, hv, hh u hu]
      simp
    · rw [if_neg hu]
      by_cases hl : isLow u
      · rw [if_pos hl, hlow u hl]
        simp
      · rw [if_neg hl, hun u (eq_false_iff.mpr hu) (eq_false_iff.mpr hl)]
        simp

lemma lexLe_bigEndian (us vs : List UInt16) :
    lexLe (us.flatMap bigEndian) (vs.flatMap bigEndian) = lexLe (us.map UInt16.toNat) (vs.map UInt16.toNat) := by
  induction us generalizing vs with
  | nil => rfl
  | cons u us ih =>
    cases vs with
    | nil => rfl
    | cons v vs =>
      have hlt : u.toNat < v.toNat ↔ u.toNat / 256 < v.toNat / 256 ∨
          u.toNat / 256 = v.toNat / 256 ∧ u.toNat % 256 < v.toNat % 256 := by omega
      have heq : u.toNat = v.toNat ↔ u.toNat / 256 = v.toNat / 256 ∧ u.toNat % 256 = v.toNat % 256 := by omega
      rw [Bool.eq_iff_iff]
      simp only [flatMap_cons, bigEndian, cons_append, nil_append, map_cons,
        lexLe, ih, or_eq_true, and_eq_true, decide_eq_true_eq]
      tauto

end LeafWeb.Lib
