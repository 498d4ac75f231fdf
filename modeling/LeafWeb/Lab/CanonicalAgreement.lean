import LeafWeb.Lab.CanonicalText
import LeafWeb.Lab.NumberAgreement

/-! Server and browser refuse the same values, and write the same bytes unless a number is one of some
powers of two. -/

namespace LeafWeb.Lab

open Lib List Writer Option Json

lemma escape_eq (c : ℕ) : escape scriptEscapes c = escape pythonEscapes c := by
  have hlk : scriptEscapes.lookup c = pythonEscapes.lookup c := by
    by_cases hc : c < 0x5d
    · exact (by decide : ∀ c < 0x5d, scriptEscapes.lookup c = pythonEscapes.lookup c) c hc
    · have hn : ∀ l : List (ℕ × Char), (∀ p ∈ l, p.1 < 0x5d) → l.lookup c = none := by
        intro l hl
        rw [lookup_eq_none_iff]
        intro p hp
        have := hl p hp
        rw [bne_iff_ne]
        omega
      rw [hn scriptEscapes (by decide), hn pythonEscapes (by decide)]
  rw [escape, escape, hlk]

lemma browserString_eq : browserString = serverString := by
  funext s
  have hq : quote scriptEscapes s = quote pythonEscapes s := by
    rw [quote, quote, funext escape_eq]
  rw [browserString, serverString, hq]
  by_cases h : wellFormed s
  · rw [if_pos h, if_neg]
    intro ha
    obtain ⟨c, hc, hs⟩ := any_eq_true.mp ha
    rw [wellFormed_iff.mp h c hc] at hs
    exact absurd hs (by decide)
  · rw [if_neg h, if_pos]
    by_contra hn
    apply h
    rw [wellFormed_iff]
    intro c hc
    by_contra hs
    exact hn (any_eq_true.mpr ⟨c, hc, by simpa using hs⟩)

lemma browserWriter_eq : browserWriter = jsonWriter browserNumber := by
  have hb : browserWriter.before = serverWriter.before := by
    simp [browserWriter, serverWriter, utf16be, flatMap_unitsOf_codePoints, lexLe_bigEndian]
  have hs : browserWriter.string = serverWriter.string := browserString_eq
  calc browserWriter = ⟨browserNumber, browserWriter.string, browserWriter.before⟩ := rfl
    _ = jsonWriter browserNumber := by rw [hb, hs]; rfl

variable {digits t : List Char}

lemma numeral_append_layout {n : ℤ} {y : Binary64} (hd : ∀ c ∈ digits, c.isDigit) (hne : digits ≠ []) :
    signText y ++ layout digits n ≠ [] ∧ ∀ c ∈ signText y ++ layout digits n, numeral c := by
  constructor
  · intro h
    exact layout_ne_nil hne n (append_eq_nil_iff.mp h).2
  intro c hc
  rcases mem_append.mp hc with hc | hc
  · rw [signText] at hc
    split_ifs at hc
    · rw [mem_singleton.mp hc]
      decide
    · exact absurd hc not_mem_nil
  · exact numeral_layout hd hc

lemma numerals_zero {o : Option (List Char)} {x : Binary64} (hx : x.value = 0)
    (h : (if x.value = 0 then some ['0'] else o) = some t) : t ≠ [] ∧ ∀ c ∈ t, numeral c := by
  rw [if_pos hx] at h
  obtain rfl := some.inj h
  refine ⟨cons_ne_nil _ _, fun c hc => ?_⟩
  rw [mem_singleton.mp hc]
  decide

lemma numerals_serverNumber : Numerals serverNumber := by
  intro x t h
  by_cases hx : x.value = 0
  · exact numerals_zero hx h
  obtain ⟨p, hp, -, -, ht⟩ := serverNumber_eq hx
  rw [h] at ht
  obtain rfl := some.inj ht
  have hd := digits_rounded hp (Binary64.magnitude_pos hx)
  exact numeral_append_layout (fun c hc => isDigit_toDigits (mem_of_mem_stripEnd hc))
    (leads_toDigits hd.pos).stripEnd_ne_nil

lemma numerals_browserNumber : Numerals browserNumber := by
  intro x t h
  by_cases hx : x.value = 0
  · exact numerals_zero hx h
  obtain ⟨k, s, n, -, ht⟩ := browserNumber_eq hx
  rw [h] at ht
  obtain rfl := some.inj ht
  exact numeral_append_layout (fun c => isDigit_toDigits) Nat.toDigits_ne_nil

lemma serverNumber_isSome (x : Binary64) : (serverNumber x).isSome := by
  by_cases hx : x.value = 0
  · rw [serverNumber, if_pos hx]
    rfl
  obtain ⟨p, -, -, -, ht⟩ := serverNumber_eq hx
  rw [ht]
  rfl

lemma browserNumber_isSome (x : Binary64) : (browserNumber x).isSome := by
  by_cases hx : x.value = 0
  · rw [browserNumber, if_pos hx]
    rfl
  obtain ⟨k, s, n, -, ht⟩ := browserNumber_eq hx
  rw [ht]
  rfl

mutual

def Json.numbers : Json → List Binary64
  | .number x => [x]
  | .array items => numbersOfItems items
  | .object fields => numbersOfFields fields
  | _ => []

def numbersOfItems : List Json → List Binary64
  | [] => []
  | v :: vs => v.numbers ++ numbersOfItems vs

def numbersOfFields : List (Text × Json) → List Binary64
  | [] => []
  | (_, v) :: fields => v.numbers ++ numbersOfFields fields

end

mutual

def Json.strings : Json → List Text
  | .text s => [s]
  | .array items => stringsOfItems items
  | .object fields => stringsOfFields fields
  | _ => []

def stringsOfItems : List Json → List Text
  | [] => []
  | v :: vs => v.strings ++ stringsOfItems vs

def stringsOfFields : List (Text × Json) → List Text
  | [] => []
  | (key, v) :: fields => key :: v.strings ++ stringsOfFields fields

end

variable {number : Binary64 → Option (List Char)} {u : List Char}

mutual

variable {number' : Binary64 → Option (List Char)}

lemma encode_congr (v : Json) (h : ∀ x ∈ v.numbers, number x = number' x) :
    (jsonWriter number).encode v = (jsonWriter number').encode v := by
  cases v with
  | null | text => rfl
  | bool b => cases b <;> rfl
  | number x => exact h x mem_cons_self
  | array items =>
    rw [encode, encode, encodeItems_congr items h]
  | object fields =>
    rw [encode, encode, encodeFields_congr fields h]
    rfl

lemma encodeItems_congr (vs : List Json) (h : ∀ x ∈ numbersOfItems vs, number x = number' x) :
    (jsonWriter number).encodeItems vs = (jsonWriter number').encodeItems vs := by
  cases vs with
  | nil => rfl
  | cons v vs =>
    rw [numbersOfItems, forall_mem_append] at h
    rw [encodeItems, encodeItems, encode_congr v h.1, encodeItems_congr vs h.2]

lemma encodeFields_congr (fs : List (Text × Json)) (h : ∀ x ∈ numbersOfFields fs, number x = number' x) :
    (jsonWriter number).encodeFields fs = (jsonWriter number').encodeFields fs := by
  cases fs with
  | nil => rfl
  | cons f fs =>
    obtain ⟨key, v⟩ := f
    rw [numbersOfFields, forall_mem_append] at h
    rw [encodeFields, encodeFields, encode_congr v h.1, encodeFields_congr fs h.2]
    rfl

end

mutual

variable {R : Binary64 → Binary64 → Prop}

lemma forall_numbers_of_alike (v : Json) (h : v.Alike R v) : ∀ x ∈ v.numbers, R x x := by
  cases v with
  | null | bool | text => simp [numbers]
  | number x =>
    intro y hy
    rw [mem_singleton.mp hy]
    exact h
  | array items => exact forall_numbersOfItems items h
  | object fields => exact forall_numbersOfFields fields h

lemma forall_numbersOfItems (vs : List Json) (h : AlikeItems R vs vs) : ∀ x ∈ numbersOfItems vs, R x x := by
  cases vs with
  | nil => simp [numbersOfItems]
  | cons v vs =>
    rw [numbersOfItems, forall_mem_append]
    exact ⟨forall_numbers_of_alike v h.1, forall_numbersOfItems vs h.2⟩

lemma forall_numbersOfFields (fs : List (Text × Json)) (h : AlikeFields R fs fs) :
    ∀ x ∈ numbersOfFields fs, R x x := by
  cases fs with
  | nil => simp [numbersOfFields]
  | cons f fs =>
    obtain ⟨key, v⟩ := f
    rw [numbersOfFields, forall_mem_append]
    exact ⟨forall_numbers_of_alike v h.2.1, forall_numbersOfFields fs h.2.2⟩

end

lemma numbersOfFields_eq (fs : List (Text × Json)) : numbersOfFields fs = fs.flatMap fun f => f.2.numbers := by
  induction fs with
  | nil => rfl
  | cons f fs ih => rw [numbersOfFields, ih, flatMap_cons]

mutual

lemma mem_numbers_arrange (before : Text → Text → Bool) (v : Json) (x : Binary64) :
    x ∈ (v.arrange before).numbers ↔ x ∈ v.numbers := by
  cases v with
  | null | bool | number | text => rfl
  | array items => exact mem_numbersOfItems_arrange before items x
  | object fields =>
    rw [arrange, numbers, numbers, numbersOfFields_eq,
      ((sortFields_perm before _).flatMap_right _).mem_iff, ← numbersOfFields_eq]
    exact mem_numbersOfFields_arrange before fields x

lemma mem_numbersOfItems_arrange (before : Text → Text → Bool) (vs : List Json) (x : Binary64) :
    x ∈ numbersOfItems (arrangeItems before vs) ↔ x ∈ numbersOfItems vs := by
  cases vs with
  | nil => rfl
  | cons v vs =>
    rw [arrangeItems, numbersOfItems, numbersOfItems, mem_append, mem_append,
      mem_numbers_arrange before v x, mem_numbersOfItems_arrange before vs x]

lemma mem_numbersOfFields_arrange (before : Text → Text → Bool) (fs : List (Text × Json))
    (x : Binary64) : x ∈ numbersOfFields (arrangeFields before fs) ↔ x ∈ numbersOfFields fs := by
  cases fs with
  | nil => rfl
  | cons f fs =>
    rw [arrangeFields, numbersOfFields, numbersOfFields, mem_append, mem_append,
      mem_numbers_arrange before f.2 x, mem_numbersOfFields_arrange before fs x]

end

lemma serverString_isSome (s : Text) : (serverString s).isSome ↔ wellFormed s := by
  rw [← browserString_eq, browserString]
  split_ifs with h <;> simp [h]

mutual

lemma encode_isSome (hs : ∀ x, (number x).isSome) (v : Json) :
    ((jsonWriter number).encode v).isSome ↔ ∀ s ∈ v.strings, wellFormed s := by
  cases v with
  | null => simp [encode, strings]
  | bool b => cases b <;> simp [encode, strings]
  | number x =>
    have h : ((jsonWriter number).encode (.number x)).isSome := hs x
    simp [h, strings]
  | text s =>
    rw [strings, forall_mem_singleton]
    exact serverString_isSome s
  | array items =>
    have h := encodeItems_isSome hs items
    rw [strings, ← h, encode]
    cases (jsonWriter number).encodeItems items <;> simp
  | object fields =>
    have h := encodeFields_isSome hs fields
    rw [strings, ← h, encode]
    cases (jsonWriter number).encodeFields fields <;> simp

lemma encodeItems_isSome (hs : ∀ x, (number x).isSome) (vs : List Json) :
    ((jsonWriter number).encodeItems vs).isSome ↔ ∀ s ∈ stringsOfItems vs, wellFormed s := by
  cases vs with
  | nil => simp [encodeItems, stringsOfItems]
  | cons v vs =>
    have h1 := encode_isSome hs v
    have h2 := encodeItems_isSome hs vs
    rw [stringsOfItems, forall_mem_append, ← h1, ← h2, encodeItems]
    cases (jsonWriter number).encode v <;> cases (jsonWriter number).encodeItems vs <;> simp

lemma encodeFields_isSome (hs : ∀ x, (number x).isSome) (fs : List (Text × Json)) :
    ((jsonWriter number).encodeFields fs).isSome ↔ ∀ s ∈ stringsOfFields fs, wellFormed s := by
  cases fs with
  | nil => simp [encodeFields, stringsOfFields]
  | cons f fs =>
    obtain ⟨key, v⟩ := f
    have h0 := serverString_isSome key
    have h1 := encode_isSome hs v
    have h2 := encodeFields_isSome hs fs
    have hst : (jsonWriter number).string key = serverString key := rfl
    rw [stringsOfFields, forall_mem_append, forall_mem_cons, ← h0, ← h1, ← h2, encodeFields, hst]
    cases serverString key <;> cases (jsonWriter number).encode v <;>
      cases (jsonWriter number).encodeFields fs <;> simp

end

lemma canonicalJSON_eq (v : Json) : canonicalJSON v = (jsonWriter browserNumber).encode v := by
  rw [canonicalJSON, browserWriter_eq]

lemma canonicalText_eq (v : Json) : canonicalText v = (jsonWriter serverNumber).encode v := rfl

lemma numbers_agree_of_text_eq {v : Json} (hv : ∀ s ∈ v.strings, wellFormed s)
    (h : canonicalText v = canonicalJSON v) : ∀ x ∈ v.numbers, serverNumber x = browserNumber x := by
  obtain ⟨t, ht⟩ := isSome_iff_exists.mp ((encode_isSome serverNumber_isSome v).mpr hv)
  have ht' : (jsonWriter browserNumber).encode v = some t := by
    rw [← canonicalJSON_eq, ← h, canonicalText_eq, ht]
  rw [encode_eq_plain] at ht ht'
  have hs := plain_split numerals_serverNumber numerals_browserNumber _ _ ht ht' stops_nil stops_nil rfl
  intro x hx
  exact forall_numbers_of_alike _ hs.1 x ((mem_numbers_arrange _ v x).mpr hx)

lemma utf8_injective (h : utf8 t = utf8 u) : t = u := String.ofList_injective (String.toByteArray_inj.mp h)

lemma canonicalBytes_eq_iff (v : Json) : canonicalBytes v = encodedJSON v ↔ canonicalText v = canonicalJSON v := by
  refine ⟨fun h => ?_, fun h => by rw [canonicalBytes, encodedJSON, h]⟩
  exact map_injective (fun _ _ => utf8_injective) h

theorem canonical_bytes_agree_iff (v : Json) :
    canonicalBytes v = encodedJSON v ↔ (∃ s ∈ v.strings, ¬ wellFormed s) ∨ ∀ x ∈ v.numbers, ¬ x.Exceptional := by
  rw [canonicalBytes_eq_iff]
  by_cases hv : ∀ s ∈ v.strings, wellFormed s
  · have hno : ¬ ∃ s ∈ v.strings, ¬ wellFormed s := by
      rintro ⟨s, hs, hbad⟩
      exact hbad (hv s hs)
    constructor
    · intro h
      right
      intro x hx
      exact numbers_eq_iff.mp (numbers_agree_of_text_eq hv h x hx)
    · intro h
      rw [canonicalText_eq, canonicalJSON_eq]
      exact encode_congr v fun x hx => numbers_eq_iff.mpr (h.resolve_left hno x hx)
  · have hsr : canonicalText v = none := by
      rw [canonicalText_eq, ← not_isSome_iff_eq_none]
      exact fun h => hv ((encode_isSome serverNumber_isSome v).mp h)
    have hb : canonicalJSON v = none := by
      rw [canonicalJSON_eq, ← not_isSome_iff_eq_none]
      exact fun h => hv ((encode_isSome browserNumber_isSome v).mp h)
    push Not at hv
    exact iff_of_true (hsr.trans hb.symm) (.inl hv)

def smallPower : Binary64 where
  negative := false
  significand := 2 ^ 52
  exponent := -76
  normal := ⟨by norm_num, by norm_num, .inl le_rfl⟩
  finite := by norm_num

theorem small_power_written_differently :
    canonicalText (.number smallPower) = some "5.9604644775390625e-8".toList ∧
    canonicalJSON (.number smallPower) = some "5.960464477539063e-8".toList ∧
    canonicalBytes (.number smallPower) ≠ encodedJSON (.number smallPower) := by
  have hs : canonicalText (.number smallPower) = some "5.9604644775390625e-8".toList := by
    decide +kernel
  have hb : canonicalJSON (.number smallPower) = some "5.960464477539063e-8".toList := by
    decide +kernel
  decide +kernel

end LeafWeb.Lab
