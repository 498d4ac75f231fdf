import LeafWeb.Lib.Text
import Mathlib.Data.String.Basic

/-! The names of `server/mutation_plan.py`. A case mapping is exact wherever its result is ASCII, which one
side of every comparison here is. -/

namespace LeafWeb.Mutation

open Lib List Bool

def hexDigit (c : Char) : Bool := c.isDigit || ('a' ≤ c && c ≤ 'f') || ('A' ≤ c && c ≤ 'F')

def handleTail (c : Char) : Bool := c.isAlphanum || c = '_' || c = '.' || c = ':' || c = '-'

def layerTail (c : Char) : Bool := c.isAlphanum || c = ' ' || c = '_' || c = '.' || c = '$' || c = '-'

def matchesName (tail : Char → Bool) (longest : ℕ) (s : String) : Bool :=
  match s.toList with
  | [] => false
  | c :: cs => c.isAlphanum && cs.length ≤ longest && cs.all tail

/-- `_HANDLE_RE` -/
def safeHandle : String → Bool := matchesName handleTail 127

/-- `_LAYER_RE` -/
def safeName : String → Bool := matchesName layerTail 254

def isHex (s : String) : Bool := s.toList ≠ [] && s.toList.all hexDigit

/-- `_EXISTING_HANDLE_RE` -/
def safeExisting (s : String) : Bool := isHex s && s.length ≤ 32

def printable (c : Char) : Bool := 0x20 ≤ c.toNat && c.toNat ≤ 0x7e

def lowerText (s : String) : String := String.ofList (s.toList.map lowerAscii)

def ligature (c : Char) : Option String :=
  match c with
  | 'ß' => some "ss"
  | 'ﬀ' => some "ff"
  | 'ﬁ' => some "fi"
  | 'ﬂ' => some "fl"
  | 'ﬃ' => some "ffi"
  | 'ﬄ' => some "ffl"
  | 'ﬅ' => some "st"
  | 'ﬆ' => some "st"
  | 'ſ' => some "s"
  | _ => none

def upperAscii (c : Char) : List Char :=
  if c = 'ı' then ['I'] else ((ligature c).map String.toList).getD [c] |>.map Char.toUpper

def foldAscii (c : Char) : List Char :=
  if c = 'ẞ' then ['s', 's'] else ((ligature c).map String.toList).getD [lowerAscii c]

def upperText (s : String) : String := String.ofList (s.toList.flatMap upperAscii)

/-- `str.casefold` -/
def foldText (s : String) : String := String.ofList (s.toList.flatMap foldAscii)

def hexValue (s : String) : ℕ :=
  s.toList.foldl (fun n c =>
    16 * n + (if c.isDigit then c.toNat - 48 else c.toUpper.toNat - 55)) 0

def spelling (known : List String) (name : String) : Option String :=
  known.find? fun candidate => lowerText candidate = lowerText name

def canonicalizeLayer (layer : String) (layers : Option (List String)) : String :=
  (spelling (layers.getD []) layer).getD layer

def standardLinetypes : List String := ["ByLayer", "ByBlock", "Continuous"]

def noteName (names : List String) (name : String) : List String :=
  if names.any fun known => lowerText known = lowerText name then names else names ++ [name]

def knownLinetypeNames (recorded : List String) : List String :=
  standardLinetypes.foldl noteName ((recorded.filter fun name => name ≠ "").foldl noteName [])

def canonicalLinetypeName (value : String) (known : List String) : Option String := spelling known value

def lineweights : List ℤ :=
  [-3, -2, -1, 0, 5, 9, 13, 15, 18, 20, 25, 30, 35, 40, 50, 53, 60, 70, 80, 90, 100, 106, 120, 140, 158, 200, 211]

variable {name spelled : String}

lemma spelling_again {known : List String} (h : spelling known name = some spelled) :
    spelling known spelled = some spelled := by
  have hl : lowerText spelled = lowerText name := by simpa using find?_some h
  rw [spelling, hl]
  exact h

lemma canonicalizeLayer_again (layer : String) (layers : Option (List String)) :
    canonicalizeLayer (canonicalizeLayer layer layers) layers = canonicalizeLayer layer layers := by
  unfold canonicalizeLayer
  cases h : spelling (layers.getD []) layer with
  | none => simp [h]
  | some spelled => simp [spelling_again h]

variable {s : String}

lemma tail_of_matchesName {longest : ℕ} {tail : Char → Bool} (ht : ∀ c : Char, c.isAlphanum → tail c)
    (h : matchesName tail longest s) : ∀ c ∈ s.toList, tail c := by
  unfold matchesName at h
  cases hs : s.toList with
  | nil => simp
  | cons first rest =>
    rw [hs] at h
    simp only [and_eq_true, all_eq_true] at h
    intro c hc
    rcases mem_cons.mp hc with rfl | hc
    · exact ht _ h.1.1
    · exact h.2 c hc

lemma layerTail_of_safeName (h : safeName s) : ∀ c ∈ s.toList, layerTail c :=
  tail_of_matchesName (fun c hc => by simp [layerTail, hc]) h

variable {c d : Char}

lemma not_mem_of_safeName (h : safeName s) (hc : layerTail c = false) : c ∉ s.toList := by
  intro hm
  rw [layerTail_of_safeName h c hm] at hc
  exact Bool.noConfusion hc

lemma ascii_cases {P : Char → Prop} (h : ∀ n < 128, P (Char.ofNat n)) (hc : c.toNat < 128) : P c := by
  have hP := h c.toNat hc
  rwa [Char.ofNat_toNat] at hP

lemma toUpper_toUpper (c : Char) : c.toUpper.toUpper = c.toUpper := by
  by_cases h : 'a'.val ≤ c.val ∧ c.val ≤ 'z'.val
  · have hc : c.toNat < 128 := lt_of_le_of_lt (UInt32.le_iff_toNat_le.mp h.2) (by decide)
    exact ascii_cases (P := fun c => c.toUpper.toUpper = c.toUpper) (by decide) hc
  · have hc : c.toUpper = c := dif_neg h
    rw [hc, hc]

lemma toLower_eq_zero (h : c.toLower = '0') : c = '0' := by
  by_cases hc : 'A'.val ≤ c.val ∧ c.val ≤ 'Z'.val
  · have hlt : c.toNat < 128 := lt_of_le_of_lt (UInt32.le_iff_toNat_le.mp hc.2) (by decide)
    revert h
    exact ascii_cases (P := fun c => c.toLower = '0' → c = '0') (by decide) hlt
  · have hl : c.toLower = c := dif_neg hc
    rwa [hl] at h

lemma eq_zero_of_lowerText (h : lowerText s = lowerText "0") : s = "0" := by
  have hl : s.toList.map lowerAscii = ['0'] := by
    rw [lowerText, lowerText, String.ofList_inj] at h
    rw [h]
    decide
  obtain ⟨c, hc, hz⟩ := map_eq_singleton_iff.mp hl
  have hch : c = '0' := by
    unfold lowerAscii at hz
    split at hz
    · exact absurd hz (by decide)
    · exact toLower_eq_zero hz
  rw [hch] at hc
  rw [← String.toList_inj, hc]
  rfl

lemma ligature_of_printable (h : printable c) : ligature c = none := by
  unfold ligature
  split <;> first | rfl | exact absurd h (by decide)

lemma upperAscii_of_printable (h : printable c) : upperAscii c = [c.toUpper] := by
  have hi : c ≠ 'ı' := by
    rintro rfl
    exact absurd h (by decide)
  simp [upperAscii, hi, ligature_of_printable h]

lemma toUpper_of_mem_upperAscii (h : d ∈ upperAscii c) : d.toUpper = d := by
  unfold upperAscii at h
  split at h
  · rw [mem_singleton.mp h]
    decide
  · obtain ⟨x, -, rfl⟩ := mem_map.mp h
    exact toUpper_toUpper x

lemma toList_upperText (h : s.toList.all printable) : (upperText s).toList = s.toList.map Char.toUpper := by
  rw [upperText, String.toList_ofList, map_eq_flatMap]
  apply flatMap_congr
  intro c hc
  exact upperAscii_of_printable (all_eq_true.mp h c hc)

lemma upperText_again (h : (upperText s).toList.all printable) : upperText (upperText s) = upperText s := by
  rw [← String.toList_inj, toList_upperText h]
  refine (map_congr_left ?_).trans (map_id _)
  intro c hc
  rw [upperText, String.toList_ofList] at hc
  obtain ⟨x, -, hx⟩ := mem_flatMap.mp hc
  exact toUpper_of_mem_upperAscii hx

lemma printable_of_hexDigit (h : hexDigit c) : printable c := by
  simp only [hexDigit, Char.isDigit, printable, Char.le_def, UInt32.le_iff_toNat_le] at *
  simp at *
  omega

lemma hexDigit_toUpper (h : hexDigit c) : hexDigit c.toUpper := by
  have hc : c.toNat < 128 := by
    have hp := printable_of_hexDigit h
    simp only [printable, and_eq_true, decide_eq_true_eq] at hp
    omega
  revert h
  exact ascii_cases (P := fun c => hexDigit c → hexDigit c.toUpper) (by decide) hc

lemma printable_of_safeExisting (h : safeExisting s) : s.toList.all printable := by
  simp only [safeExisting, isHex, and_eq_true, all_eq_true] at h ⊢
  exact fun c hc => printable_of_hexDigit (h.1.2 c hc)

lemma safeExisting_upperText (h : safeExisting s) : safeExisting (upperText s) := by
  have hl := toList_upperText (printable_of_safeExisting h)
  simp only [safeExisting, isHex, and_eq_true, all_eq_true, ← String.length_toList] at h ⊢
  rw [hl, length_map]
  refine ⟨⟨by simpa using h.1.1, ?_⟩, h.2⟩
  intro c hc
  obtain ⟨x, hx, rfl⟩ := mem_map.mp hc
  exact hexDigit_toUpper (h.1.2 x hx)

lemma upperText_again_of_safeExisting (h : safeExisting s) : upperText (upperText s) = upperText s :=
  upperText_again (printable_of_safeExisting (safeExisting_upperText h))

end LeafWeb.Mutation
