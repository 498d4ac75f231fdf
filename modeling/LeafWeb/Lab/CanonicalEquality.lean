import LeafWeb.Lab.CanonicalAgreement

namespace LeafWeb.Lab

open Lib Option Nat List Binary64 Writer

variable {digits : List Char}

lemma head_layout (hd : ∀ c ∈ digits, c.isDigit) (hne : digits ≠ []) (n : ℤ) :
    (layout digits n).head? ≠ some '-' := by
  obtain ⟨d, ds, rfl⟩ := exists_cons_of_ne_nil hne
  have hds : d ≠ '-' := by
    rintro rfl
    exact absurd (hd '-' mem_cons_self) (by decide)
  rw [layout]
  split_ifs with h1 h2 h3
  · simpa using hds
  · obtain ⟨k, hk⟩ : ∃ k, n.toNat = k + 1 := ⟨n.toNat - 1, by omega⟩
    simpa [hk] using hds
  · simp
  · simpa [assemble] using hds

variable {y : Binary64}

lemma float_text {n : ℤ} (hd : ∀ c ∈ digits, c.isDigit)
    (hne : digits ≠ []) (hr : readsBack y (textValue (layout digits n))) :
    float (signText y ++ layout digits n) = y.value := by
  have hh := head_layout hd hne n
  rw [readsBack, decide_eq_true_iff] at hr
  rw [signText, value, ← hr]
  cases y.negative
  · rw [if_neg Bool.false_ne_true, nil_append, if_neg Bool.false_ne_true]
    generalize layout digits n = t at hh
    unfold float
    split
    · exact absurd rfl hh
    · rfl
  · rfl

variable {t t' : List Char} {x : Binary64} {number : Binary64 → Option (List Char)}

lemma float_zero (hx : x.value = 0) : float ['0'] = x.value := by
  rw [hx]
  decide +kernel

lemma float_serverNumber (h : serverNumber x = some t) : float t = x.value := by
  by_cases hx : x.value = 0
  · rw [serverNumber, if_pos hx] at h
    rw [← some.inj h, float_zero hx]
  have hpos := magnitude_pos hx
  obtain ⟨p, hp, hr, -, ht⟩ := serverNumber_eq hx
  rw [h] at ht
  obtain rfl := some.inj ht
  have hd : ∀ c ∈ stripEnd (toDigits 10 (rounded p x.magnitude).1), c.isDigit :=
    fun c hc => isDigit_toDigits (mem_of_mem_stripEnd hc)
  have hne := (leads_toDigits (digits_rounded hp hpos).pos).stripEnd_ne_nil
  apply float_text hd hne
  rwa [textValue_layout hd hne, ofDigitChars_rounded hp hpos (stripEnd_stripEnd _)]

lemma float_browserNumber (h : browserNumber x = some t) : float t = x.value := by
  by_cases hx : x.value = 0
  · rw [browserNumber, if_pos hx] at h
    rw [← some.inj h, float_zero hx]
  obtain ⟨k, s, n, hs, ht⟩ := browserNumber_eq hx
  rw [h] at ht
  obtain rfl := some.inj ht
  have hd : ∀ c ∈ toDigits 10 s, c.isDigit := fun c hc => isDigit_toDigits hc
  apply float_text hd toDigits_ne_nil
  rw [textValue_layout hd toDigits_ne_nil, ofDigitChars_ten_toDigits,
    length_toDigits hs.pos hs.digits.1 hs.digits.2]
  exact hs.readsBack

lemma parts_eq_of_value_eq (hx : x.value ≠ 0) (h : x.value = y.value) :
    x.negative = y.negative ∧ x.magnitude = y.magnitude := by
  have hp := magnitude_pos hx
  have hps := magnitude_pos (h ▸ hx)
  rw [value, value] at h
  cases hnx : x.negative <;> cases hny : y.negative <;> simp only [hnx, hny, if_true] at h
  · exact ⟨rfl, by simpa using h⟩
  · simp only [Bool.false_eq_true, if_false] at h
    linarith
  · simp only [Bool.false_eq_true, if_false] at h
    linarith
  · exact ⟨rfl, by linarith⟩

lemma serverNumber_eq_iff (x y : Binary64) : serverNumber x = serverNumber y ↔ x.value = y.value := by
  constructor
  · intro h
    obtain ⟨t, ht⟩ := isSome_iff_exists.mp (serverNumber_isSome x)
    rw [← float_serverNumber ht, ← float_serverNumber (h ▸ ht)]
  intro h
  by_cases hx : x.value = 0
  · rw [serverNumber, serverNumber, if_pos hx, if_pos (h ▸ hx)]
  obtain ⟨hs, hm⟩ := parts_eq_of_value_eq hx h
  have hf : ∀ p, format p x = format p y := by
    intro p
    rw [format, format, hs, hm]
  simp [serverNumber, hf, h]

lemma browserNumber_eq_iff (x y : Binary64) : browserNumber x = browserNumber y ↔ x.value = y.value := by
  constructor
  · intro h
    obtain ⟨t, ht⟩ := isSome_iff_exists.mp (browserNumber_isSome x)
    rw [← float_browserNumber ht, ← float_browserNumber (h ▸ ht)]
  intro h
  by_cases hx : x.value = 0
  · rw [browserNumber, browserNumber, if_pos hx, if_pos (h ▸ hx)]
  obtain ⟨hs, hm⟩ := parts_eq_of_value_eq hx h
  have hr : readsBack x = readsBack y := by
    funext q
    rw [readsBack, readsBack, hm]
  rw [browserNumber, browserNumber, h, hs, hm, hr]

mutual

lemma plain_eq_of_alike (v u : Json) (h : v.Alike (fun a b => number a = number b) u) :
    (jsonWriter number).plain v = (jsonWriter number).plain u := by
  cases v <;> cases u <;> simp only [Json.Alike] at h
  · rfl
  · rw [h]
  · exact h
  · rw [h]
  · rw [plain, plain, plainItems_eq_of_alike _ _ h]
  · rw [plain, plain, plainFields_eq_of_alike _ _ h]

lemma plainItems_eq_of_alike (vs us : List Json) (h : AlikeItems (fun a b => number a = number b) vs us) :
    (jsonWriter number).plainItems vs = (jsonWriter number).plainItems us := by
  cases vs <;> cases us <;> simp only [AlikeItems] at h
  · rfl
  · rw [plainItems, plainItems, plain_eq_of_alike _ _ h.1, plainItems_eq_of_alike _ _ h.2]

lemma plainFields_eq_of_alike (fs gs : List (Text × Json))
    (h : AlikeFields (fun a b => number a = number b) fs gs) :
    (jsonWriter number).plainFields fs = (jsonWriter number).plainFields gs := by
  cases fs with
  | nil =>
    cases gs with
    | nil => rfl
    | cons g gs => simp only [AlikeFields] at h
  | cons f fs =>
    cases gs with
    | nil => simp only [AlikeFields] at h
    | cons g gs =>
      obtain ⟨key, v⟩ := f
      obtain ⟨key', u⟩ := g
      simp only [AlikeFields] at h
      obtain ⟨rfl, hv, hfs⟩ := h
      rw [plainFields, plainFields, plain_eq_of_alike _ _ hv, plainFields_eq_of_alike _ _ hfs]

end

def Json.Equal (v u : Json) : Prop :=
  (v.arrange serverWriter.before).Alike (fun a b => a.value = b.value) (u.arrange serverWriter.before)

variable {v u : Json}

lemma encode_eq_iff (hn : Numerals number) (hv : ∀ x y, number x = number y ↔ x.value = y.value)
    (ht : (jsonWriter number).encode v = some t)
    (ht' : (jsonWriter number).encode u = some t') : t = t' ↔ v.Equal u := by
  have hr : (fun a b => number a = number b) = fun a b : Binary64 => a.value = b.value := by
    funext a b
    exact propext (hv a b)
  rw [encode_eq_plain] at ht ht'
  rw [Json.Equal, ← hr]
  constructor
  · intro h
    exact (plain_split hn hn _ _ ht ht' stops_nil stops_nil (by rw [h])).1
  · intro h
    exact mem_unique ht ((plain_eq_of_alike _ _ h).trans ht')

lemma canonicalText_eq_iff (ht : canonicalText v = some t) (ht' : canonicalText u = some t') :
    t = t' ↔ v.Equal u :=
  encode_eq_iff numerals_serverNumber serverNumber_eq_iff ht ht'

lemma canonicalJSON_eq_iff (ht : canonicalJSON v = some t)
    (ht' : canonicalJSON u = some t') : t = t' ↔ v.Equal u := by
  rw [canonicalJSON_eq] at ht ht'
  exact encode_eq_iff numerals_browserNumber browserNumber_eq_iff ht ht'

lemma canonicalText_isSome (v : Json) : (canonicalText v).isSome ↔ ∀ s ∈ v.strings, wellFormed s :=
  encode_isSome serverNumber_isSome v

lemma canonicalJSON_isSome (v : Json) : (canonicalJSON v).isSome = (canonicalText v).isSome := by
  rw [Bool.eq_iff_iff, canonicalText_isSome, canonicalJSON_eq]
  exact encode_isSome browserNumber_isSome v

theorem canonical_bytes_faithful (v u : Json) :
    ((canonicalBytes v).isSome ↔ ∀ s ∈ v.strings, wellFormed s) ∧
      (encodedJSON v).isSome = (canonicalBytes v).isSome ∧
    (∀ b b', canonicalBytes v = some b → canonicalBytes u = some b' → (b = b' ↔ v.Equal u)) ∧
    ∀ b b', encodedJSON v = some b → encodedJSON u = some b' → (b = b' ↔ v.Equal u) := by
  have hu : ∀ t t', utf8 t = utf8 t' ↔ t = t' := fun t t' => ⟨utf8_injective, congrArg utf8⟩
  simp only [canonicalBytes, encodedJSON, isSome_map, map_eq_some_iff]
  refine ⟨canonicalText_isSome v, canonicalJSON_isSome v, ?_, ?_⟩
  · rintro _ _ ⟨t, ht, rfl⟩ ⟨t', ht', rfl⟩
    exact (hu t t').trans (canonicalText_eq_iff ht ht')
  · rintro _ _ ⟨t, ht, rfl⟩ ⟨t', ht', rfl⟩
    exact (hu t t').trans (canonicalJSON_eq_iff ht ht')

end LeafWeb.Lab
