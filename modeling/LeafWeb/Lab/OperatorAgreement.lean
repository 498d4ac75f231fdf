import LeafWeb.Lab.CanonicalEquality
import LeafWeb.Lab.SortOrder

namespace LeafWeb.Lab

open Lib List Bool Nat Json

lemma indexText_eq (n : ℕ) : Browser.indexText n =
    if n < 10 then [UInt16.ofNat (48 + n)]
    else Browser.indexText (n / 10) ++ [UInt16.ofNat (48 + n % 10)] := by
  have hd : ∀ d < 10, d.digitChar.toNat = 48 + d := by decide
  rw [Browser.indexText, toDigits_eq_if (by norm_num)]
  split_ifs with h
  · rw [map_singleton, hd n h]
  · rw [map_append, map_singleton, hd _ (mod_lt n (by norm_num))]
    rfl

lemma toNat_digit {d : ℕ} (h : d < 10) : (UInt16.ofNat (48 + d)).toNat = 48 + d := by
  rw [UInt16.toNat_ofNat_of_lt']
  exact lt_of_lt_of_le (by omega) (by decide : 58 ≤ UInt16.size)

lemma int_append (ks : Text) (u : UInt16) : Server.int (ks ++ [u]) = 10 * Server.int ks + (u.toNat - 48) := by
  rw [Server.int, foldl_append]
  rfl

def Numeric (key : Text) : Prop := key ≠ [] ∧ (∀ u ∈ key, Server.isDecimal u) ∧
    (key = [0x30] ∨ key.head? ≠ some 0x30)

lemma numeric_indexText (n : ℕ) : Numeric (Browser.indexText n) ∧ Server.int (Browser.indexText n) = n := by
  have hdc : ∀ d < 10, Server.isDecimal (UInt16.ofNat (48 + d)) := by
    intro d hd
    simp only [Server.isDecimal, toNat_digit hd, and_eq_true, decide_eq_true_eq]
    omega
  induction n using Nat.strong_induction_on with
  | _ n ih =>
    rw [indexText_eq]
    split_ifs with h
    · refine ⟨⟨cons_ne_nil _ _, ?_, ?_⟩, ?_⟩
      · rintro u hu
        rw [mem_singleton.mp hu]
        exact hdc n h
      · by_cases hz : n = 0
        · left
          rw [hz]
          rfl
        · right
          intro heq
          have := congrArg UInt16.toNat (Option.some.inj heq)
          rw [toNat_digit h] at this
          exact hz (by simpa using this)
      · rw [← nil_append [_], int_append, toNat_digit h]
        exact (by omega : 10 * 0 + (48 + n - 48) = n)
    · obtain ⟨⟨hne, ha, hh⟩, hi⟩ := ih (n / 10) (by omega)
      have hl : n % 10 < 10 := mod_lt n (by norm_num)
      refine ⟨⟨by simp, ?_, .inr ?_⟩, ?_⟩
      · intro u hu
        rcases mem_append.mp hu with hu | hu
        · exact ha u hu
        · rw [mem_singleton.mp hu]
          exact hdc _ hl
      · rw [head?_append_of_ne_nil _ hne]
        rcases hh with hz | hh
        · rw [hz] at hi
          exact absurd hi (by simp [Server.int]; omega)
        · exact hh
      · rw [int_append, hi, toNat_digit hl]
        omega

variable {key : Text} {row : Json} {n : ℕ}

lemma indexText_int (h : Numeric key) : Browser.indexText (Server.int key) = key := by
  obtain ⟨hne, ha, hh⟩ := h
  induction key using reverseRecOn with
  | nil => exact absurd rfl hne
  | append_singleton ks u ih =>
    have hu := ha u (mem_append_right _ (mem_singleton_self u))
    simp only [Server.isDecimal, and_eq_true, decide_eq_true_eq] at hu
    have hun : UInt16.ofNat (48 + (u.toNat - 48)) = u := by
      rw [(by omega : 48 + (u.toNat - 48) = u.toNat), UInt16.ofNat_toNat]
    rw [int_append, indexText_eq]
    by_cases hks : ks = []
    · subst hks
      have hi : Server.int [] = 0 := rfl
      rw [hi, if_pos (by omega), (by omega : 10 * 0 + (u.toNat - 48) = u.toNat - 48), hun]
      rfl
    · have hf : ks.head? ≠ some 0x30 := by
        rcases hh with ho | hh
        · exact absurd (congrArg length ho) (by
            simp
            omega)
        · rwa [head?_append_of_ne_nil _ hks] at hh
      have ih := ih hks (fun v hv => ha v (mem_append_left _ hv)) (.inr hf)
      have hp : Server.int ks ≠ 0 := by
        intro hz
        rw [hz] at ih
        exact hf (by rw [← ih]; rfl)
      rw [if_neg (by omega), (by omega : (10 * Server.int ks + (u.toNat - 48)) / 10 = Server.int ks),
        ih, (by omega : (10 * Server.int ks + (u.toNat - 48)) % 10 = u.toNat - 48), hun]

lemma isIndex_iff (hn : n ≤ 10 ^ 10) : Server.isIndex key n ↔ Numeric key ∧ Server.int key < n := by
  have hl : Numeric key → Server.int key < n → key.length ≤ 10 := by
    intro h hlt
    rw [← indexText_int h, Browser.indexText, length_map]
    exact (length_toDigits_le_iff (by norm_num) (by norm_num)).mpr (by omega)
  simp only [Server.isIndex, and_eq_true, or_eq_true, decide_eq_true_eq, all_eq_true]
  constructor
  · rintro ⟨⟨⟨⟨h1, h2⟩, h3⟩, -⟩, h5⟩
    exact ⟨⟨h1, h2, h3⟩, h5⟩
  · rintro ⟨h, hlt⟩
    exact ⟨⟨⟨⟨h.1, h.2.1⟩, h.2.2⟩, hl h hlt⟩, hlt⟩

mutual

def Json.lengths : Json → List ℕ
  | .array items => items.length :: lengthsOfItems items
  | .object fields => lengthsOfFields fields
  | _ => []

def lengthsOfItems : List Json → List ℕ
  | [] => []
  | v :: vs => v.lengths ++ lengthsOfItems vs

def lengthsOfFields : List (Text × Json) → List ℕ
  | [] => []
  | (_, v) :: fields => v.lengths ++ lengthsOfFields fields

end

def Json.Fits (v : Json) : Prop := ∀ n ∈ v.lengths, n < 2 ^ 32

variable {v value : Json} {items : List Json}

lemma Json.Fits.item (h : (array items).Fits) (hv : v ∈ items) : v.Fits := by
  have hs : ∀ (vs : List Json), v ∈ vs → ∀ n ∈ v.lengths, n ∈ lengthsOfItems vs := by
    intro vs hm n hn
    induction vs with
    | nil => exact absurd hm not_mem_nil
    | cons w vs ih =>
      rcases mem_cons.mp hm with rfl | hm
      · exact mem_append_left _ hn
      · exact mem_append_right _ (ih hm)
  exact fun n hn => h n (mem_cons_of_mem _ (hs items hv n hn))

lemma Json.Fits.child {fields : List (Text × Json)} (h : (object fields).Fits) (hv : (key, v) ∈ fields) :
    v.Fits := by
  have hs : ∀ (fs : List (Text × Json)), (key, v) ∈ fs → ∀ n ∈ v.lengths, n ∈ lengthsOfFields fs := by
    intro fs hm n hn
    induction fs with
    | nil => exact absurd hm not_mem_nil
    | cons f fs ih =>
      rcases mem_cons.mp hm with rfl | hm
      · exact mem_append_left _ hn
      · exact mem_append_right _ (ih hm)
  exact fun n hn => h n (hs fields hv n hn)

variable {ar : Arithmetic}

lemma own_array (hn : items.length ≤ 10 ^ 10) (hk : key ≠ units "length") :
    Browser.own ar (.array items) key =
      if Server.isIndex key items.length then some (items.getD (Server.int key) .null) else none := by
  have hb : ∀ i, Browser.indexText i = key → Server.int key = i := by
    rintro i rfl
    exact (numeric_indexText i).2
  rw [Browser.own, if_neg hk]
  split_ifs with h
  · obtain ⟨hnm, hlt⟩ := (isIndex_iff hn).mp h
    have hs : ((range items.length).find? fun i => Browser.indexText i = key).isSome := by
      rw [find?_isSome]
      exact ⟨_, mem_range.mpr hlt, decide_eq_true (indexText_int hnm)⟩
    obtain ⟨i, hi⟩ := Option.isSome_iff_exists.mp hs
    have heq : Browser.indexText i = key := by simpa using find?_some hi
    rw [hi, Option.bind_some, ← hb i heq, getD_eq_getElem?_getD, getElem?_eq_getElem hlt, Option.getD_some]
  · have hno : ((range items.length).find? fun i => Browser.indexText i = key) = none := by
      rw [find?_eq_none]
      intro i hi heq
      obtain rfl := of_decide_eq_true heq
      apply h
      rw [isIndex_iff hn, (numeric_indexText i).2]
      exact ⟨(numeric_indexText i).1, mem_range.mp hi⟩
    rw [hno, Option.bind_none]

lemma follow_eq (h : value.Fits) (keys : List Text) :
    Browser.follow ar value keys = Server.follow ar value keys := by
  induction keys generalizing value with
  | nil => rfl
  | cons key keys ih =>
    cases value with
    | object fields =>
      rw [Browser.follow, Server.follow, Browser.own]
      split_ifs with hr
      · rfl
      cases hc : fields.lookup key with
      | none => rfl
      | some child => exact ih (h.child (mem_of_lookup hc))
    | array items =>
      rw [Browser.follow, Server.follow]
      split_ifs with hr hl hi
      · rfl
      · rw [Browser.own, if_pos hl]
        exact ih fun n hn => absurd hn not_mem_nil
      all_goals
        have hn : items.length ≤ 10 ^ 10 := by
          have := h items.length mem_cons_self
          omega
        rw [own_array hn hl]
      · obtain ⟨-, hlt⟩ := (isIndex_iff hn).mp hi
        rw [if_pos hi, getD_eq_getElem?_getD, getElem?_eq_getElem hlt]
        exact ih (h.item (getElem_mem hlt))
      · rw [if_neg hi]
    | _ => simp [Browser.follow, Server.follow, Browser.own]

variable {value : Option Json}

lemma field_eq (h : ∀ v ∈ value, v.Fits) (path : Option Json) :
    Browser.field ar value path = Server.field ar value path := by
  have hv : (value.getD .null).Fits := by
    cases value with
    | none => simp [Json.Fits, lengths]
    | some v => exact h v rfl
  unfold Browser.field Server.field
  split
  · rw [follow_eq hv]
  · rfl

lemma field_row_eq (h : row.Fits) (path : Option Json) :
    Browser.field ar (some row) path = Server.field ar (some row) path := by
  apply field_eq
  intro v hv
  obtain rfl := Option.some.inj hv
  exact h

lemma count_eq (value : Option Json) : Browser.count value maxRows = Server.count value := by
  cases value with
  | none => rfl
  | some v =>
    cases v with
    | number x =>
      have hi : (Browser.isSafeInteger x ∧ 0 ≤ x.value ∧ x.value ≤ maxRows) ↔
          0 ≤ x.value ∧ x.value ≤ maxRows ∧ x.value.den = 1 := by
        simp only [Browser.isSafeInteger, and_eq_true, decide_eq_true_eq]
        constructor
        · rintro ⟨⟨hd, -⟩, h0, h1⟩
          exact ⟨h0, h1, hd⟩
        rintro ⟨h0, h1, hd⟩
        have hn : (x.value.num : ℚ) = x.value := Rat.coe_int_num_of_den_eq_one hd
        have hl : 0 ≤ x.value.num := Rat.num_nonneg.mpr h0
        have hh : x.value.num ≤ 5000 := by
          rw [← hn, maxRows] at h1
          exact_mod_cast h1
        exact ⟨⟨hd, by omega⟩, h0, h1⟩
      rw [Browser.count, Server.count]
      simp only [hi]
      rfl
    | _ => rfl

lemma truthy_eq (value : Option Json) : Browser.truthy value = Server.truthy value := by
  cases value with
  | none => rfl
  | some v =>
    cases v with
    | bool b => cases b <;> rfl
    | _ => rfl

lemma measure_eq (h : row.Fits) (settings : List (Text × Json)) :
    Browser.measure ar settings row = Server.measure ar settings row := by
  rw [Browser.measure, Server.measure, truthy_eq, field_row_eq h]
  rfl

variable {x : Binary64}

lemma nonpos_of_negative (h : x.negative = true) : x.value ≤ 0 := by
  rw [Binary64.value, if_pos h]
  exact neg_nonpos.mpr x.magnitude_nonneg

lemma nonneg_of_not_negative (h : x.negative = false) : 0 ≤ x.value := by
  rw [Binary64.value, h, if_neg (by decide)]
  exact x.magnitude_nonneg

lemma keyLess_iff (x y : Binary64) : Server.keyLess x y ↔
    x.value < y.value ∨ x.value = 0 ∧ x.negative ∧ y.value = 0 ∧ !y.negative := by
  simp only [Server.keyLess, or_eq_true, and_eq_true, decide_eq_true_eq]
  constructor
  · rintro (h | ⟨⟨heq, hx⟩, hy⟩)
    · exact .inl h
    · have h1 := nonpos_of_negative hx
      have h2 := nonneg_of_not_negative (by simpa using hy)
      exact .inr ⟨by linarith, hx, by linarith, hy⟩
  · rintro (h | ⟨h1, hx, h2, hy⟩)
    · exact .inl h
    · exact .inr ⟨⟨h1.trans h2.symm, hx⟩, hy⟩

lemma mathMin_eq : Browser.mathMin = Server.minOf := by
  funext first rest
  rw [Browser.mathMin, Server.minOf]
  congr 1
  funext lowest x
  have h := keyLess_iff x lowest
  split_ifs <;> grind

lemma mathMax_eq : Browser.mathMax = Server.maxOf := by
  funext first rest
  rw [Browser.mathMax, Server.maxOf]
  congr 1
  funext hi x
  have h := keyLess_iff hi x
  split_ifs <;> grind

lemma compare_eq (a : Json) (b : Option Json) : Browser.compare (some a) b = Server.compare a b := by
  have ht : ∀ s t : Text, lexLe (utf16be t) (utf16be s) = lexLe (t.map UInt16.toNat) (s.map UInt16.toNat) := by
    intro s t
    rw [utf16be, utf16be, flatMap_unitsOf_codePoints, flatMap_unitsOf_codePoints, lexLe_bigEndian]
  cases b with
  | none => cases a <;> rfl
  | some b =>
    cases a with
    | text s =>
      cases b with
      | text t =>
        simp only [Browser.compare, Server.compare, Browser.strictEqual, Server.same, Browser.typeof,
          Browser.less, ht]
        by_cases hle : lexLe (t.map UInt16.toNat) (s.map UInt16.toNat) <;> simp [hle]
      | _ => rfl
    | number x => cases b <;> simp [Browser.compare, Server.compare, Browser.strictEqual, Server.same,
        Browser.typeof, Browser.less]
    | bool p => cases b <;> simp [Browser.compare, Server.compare, Browser.strictEqual, Server.same,
        Browser.typeof, Browser.less]
    | _ => cases b <;> rfl

lemma equal_eq (v : Json) (target : Option Json) :
    (do
      let left ← canonicalJSON v
      let right ← target.bind canonicalJSON
      return decide (left = right) : Option Bool) = do
      let left ← canonicalText v
      let right ← target.bind canonicalText
      return decide (left = right) := by
  have hn : ∀ u, canonicalText u = none → canonicalJSON u = none := by
    intro u hu
    rw [← Option.not_isSome_iff_eq_none, canonicalJSON_isSome, hu]
    decide
  have hs : ∀ {u t}, canonicalText u = some t → ∃ t', canonicalJSON u = some t' := by
    intro u t hu
    rw [← Option.isSome_iff_exists, canonicalJSON_isSome, hu]
    rfl
  cases hv : canonicalText v with
  | none =>
    rw [hn v hv]
    rfl
  | some t =>
    obtain ⟨t', hv'⟩ := hs hv
    rw [hv']
    cases target with
    | none => rfl
    | some u =>
      cases hu : canonicalText u with
      | none =>
        simp only [Option.bind_some, hu, hn u hu]
        rfl
      | some r =>
        obtain ⟨r', hu'⟩ := hs hu
        simp only [Option.bind_some, hu, hu']
        have hi := (canonicalJSON_eq_iff hv' hu').trans (canonicalText_eq_iff hv hu).symm
        simp [hi]

lemma predicate_eq (h : row.Fits) (settings : List (Text × Json)) :
    Browser.predicate ar row settings = Server.predicate ar row settings := by
  rw [Browser.predicate, Server.predicate, field_row_eq h, truthy_eq]
  cases Server.field ar (some row) (entry settings "field") with
  | none => rfl
  | some selected =>
    simp only [Option.bind_eq_bind, Option.bind_some, compare_eq]
    split
    next name _ =>
      by_cases heq : name = units "eq"
      · rw [if_pos heq, if_pos (.inl heq)]
        simp only [if_pos heq]
        exact equal_eq selected _
      by_cases hne : name = units "ne"
      · rw [if_neg heq, if_pos hne, if_pos (.inr hne)]
        simp only [if_neg heq]
        have he := congrArg (Option.map not) (equal_eq selected (entry settings "value"))
        refine Eq.trans he ?_
        cases canonicalText selected with
        | none => rfl
        | some left =>
          cases (entry settings "value").bind canonicalText with
          | none => rfl
          | some right => simp
      · rw [if_neg heq, if_neg hne, if_neg (not_or.mpr ⟨heq, hne⟩)]
        have hg : (fun o : Ordering => decide (o = .gt ∨ o = .eq)) = fun o => decide (o ≠ .lt) := by
          funext o
          cases o <;> rfl
        have hl : (fun o : Ordering => decide (o = .lt ∨ o = .eq)) = fun o => decide (o ≠ .gt) := by
          funext o
          cases o <;> rfl
        rw [hg, hl]
    · rfl

lemma direction_eq (value : Option Json) : Browser.direction value = Server.direction value := by
  cases value with
  | none => rfl
  | some v =>
    cases v with
    | text name =>
      simp only [Browser.direction, Server.direction]
      have hne : units "asc" ≠ units "desc" := by decide
      by_cases ha : name = units "asc"
      · simp [ha, hne]
      by_cases hd : name = units "desc"
      · simp [hd, hne.symm]
      · simp [hd]
    | _ => rfl

variable {A B : Type} {as : List A}

lemma mapM_congr_of_mem {f g : A → Option B} (h : ∀ a ∈ as, f a = g a) : as.mapM f = as.mapM g := by
  induction as with
  | nil => rfl
  | cons a as ih =>
    rw [mapM_cons, mapM_cons, h a mem_cons_self, ih fun b hb => h b (mem_cons_of_mem _ hb)]

lemma filterM_congr_of_mem {p q : A → Option Bool} (h : ∀ a ∈ as, p a = q a) : as.filterM p = as.filterM q := by
  have ha : ∀ kept, as.filterAuxM p kept = as.filterAuxM q kept := by
    induction as with
    | nil => exact fun _ => rfl
    | cons a as ih =>
      intro kept
      rw [filterAuxM, filterAuxM, h a mem_cons_self]
      congr 1
      funext b
      exact ih (fun c hc => h c (mem_cons_of_mem _ hc)) _
  rw [filterM, filterM, ha]

lemma foldlM_congr_of_mem {f g : B → A → Option B} (h : ∀ b, ∀ a ∈ as, f b a = g b a) (b : B) :
    as.foldlM f b = as.foldlM g b := by
  induction as generalizing b with
  | nil => rfl
  | cons a as ih =>
    rw [foldlM_cons, foldlM_cons, h b a mem_cons_self]
    congr 1
    funext b'
    exact ih (fun b a ha => h b a (mem_cons_of_mem _ ha)) b'

variable {values : List Json}

lemma forall_fits_of_rows (h : ∀ v ∈ value, v.Fits)
    (hv : Server.rows value = some values) : ∀ row ∈ values, row.Fits := by
  intro row hr
  cases value with
  | none => cases hv
  | some v =>
    cases v with
    | array items =>
      obtain rfl := Option.some.inj hv
      exact (h _ rfl).item hr
    | _ => cases hv

section

variable (h : ∀ row ∈ values, row.Fits) (settings : List (Text × Json))

include h

lemma sum_eq : Browser.sum ar settings values = Server.total ar settings values :=
  foldlM_congr_of_mem (fun _ row hr => by rw [measure_eq (h row hr)]; rfl) _

lemma mapM_measure_eq : values.mapM (Browser.measure ar settings) = values.mapM (Server.measure ar settings) :=
  mapM_congr_of_mem fun row hr => measure_eq (h row hr) settings

lemma sort_eq (python javascript : StableSort) (down : Bool) :
    javascript.sort (fun a b => do
      let left ← Browser.field ar (some a) (entry settings "field")
      let right ← Browser.field ar (some b) (entry settings "field")
      (Browser.compare (some left) (some right)).map fun o => if down then o.swap else o) values =
    python.sort (fun a b => do
      let left ← Server.field ar (some a) (entry settings "field")
      let right ← Server.field ar (some b) (entry settings "field")
      (Server.compare left (some right)).map fun o => if down then o.swap else o) values := by
  let key : Fin values.length → Option Json := fun i =>
    Server.field ar (some (values.get i)) (entry settings "field")
  let turned : Fin values.length → Fin values.length → Option Ordering := fun i j =>
    (asked key i j).map fun o => if down then o.swap else o
  have hs : (fun i j : Fin values.length => do
      let left ← Server.field ar (some (values.get i)) (entry settings "field")
      let right ← Server.field ar (some (values.get j)) (entry settings "field")
      (Server.compare left (some right)).map fun o => if down then o.swap else o) = turned := by
    funext i j
    change _ = ((key i).bind fun left => (key j).bind fun right => Server.compare left (some right)).map _
    rw [Option.map_bind]
    congr 1
    funext left
    rw [Function.comp_apply, Option.map_bind]
    rfl
  have hb : (fun i j : Fin values.length => do
      let left ← Browser.field ar (some (values.get i)) (entry settings "field")
      let right ← Browser.field ar (some (values.get j)) (entry settings "field")
      (Browser.compare (some left) (some right)).map fun o => if down then o.swap else o) =
      turned := by
    rw [← hs]
    simp only [field_row_eq (h _ (get_mem values _)), compare_eq]
  have hd : Decides turned := by
    cases hdw : down with
    | false =>
      have hsm : turned = asked key := by
        simp [turned, hdw]
      rw [hsm]
      exact decides_asked key
    | true =>
      have hsw : turned = fun i j => (asked key i j).map Ordering.swap := by
        simp [turned, hdw]
      rw [hsw]
      exact (decides_asked key).swap
  rw [StableSort.sort, StableSort.sort, hs, hb, javascript.run_eq python hd]

end

theorem run_operator_agrees (arithmetic : Arithmetic) (python javascript : StableSort) (id : Text)
    (input settings : List (Text × Json)) (hinput : (object input).Fits) :
    Server.runOperator arithmetic python id input settings =
      Browser.runOperator arithmetic javascript id input settings := by
  have hi : Browser.operatorIds = Server.operatorIds := rfl
  have hr : Browser.rows = Server.rows := rfl
  have hva : ∀ v ∈ entry input "value", v.Fits := by
    intro v hv
    exact hinput.child (mem_of_lookup hv)
  rw [Server.runOperator, Browser.runOperator, hi]
  cases Server.operatorIds.find? fun o => o.id = id with
  | none => rfl
  | some operator =>
    simp only [hr, direction_eq, count_eq, mathMin_eq, mathMax_eq, field_eq hva]
    cases hvl : Server.rows (entry input "value") with
    | none => cases operator <;> rfl
    | some values =>
      have hf := forall_fits_of_rows hva hvl
      cases operator with
      | select =>
        exact congrArg (fun o => o.bind fun rows => some (some (array rows)))
          (mapM_congr_of_mem fun row hrow => field_row_eq (hf row hrow) _).symm
      | filter =>
        exact congrArg (fun o => o.bind fun rows => some (some (array rows)))
          (filterM_congr_of_mem fun row hrow => predicate_eq (hf row hrow) settings).symm
      | sort =>
        cases Server.direction (entry settings "direction") with
        | none => rfl
        | some down =>
          exact congrArg (fun o => o.bind fun rows => some (some (array rows)))
            (sort_eq hf settings python javascript down).symm
      | sum =>
        exact congrArg (fun o => o.bind fun total => some (some (number total))) (sum_eq hf settings).symm
      | mean =>
        simp [sum_eq hf settings, ne_eq]
      | min =>
        exact congrArg (fun o => o.bind fun xs => some (some (Server.extreme Server.minOf xs)))
          (mapM_measure_eq hf settings).symm
      | max =>
        exact congrArg (fun o => o.bind fun xs => some (some (Server.extreme Server.maxOf xs)))
          (mapM_measure_eq hf settings).symm
      | _ => rfl

def mixedRows : List (Text × Json) :=
  [(units "value", .array [.object [(units "x", .number smallPower)],
    .object [(units "x", .null)], .object [(units "x", .text (units "a"))]])]

def noArithmetic : Arithmetic where
  add _ _ := none
  subtract _ _ := none
  multiply _ _ := none
  divide _ _ := none
  average x _ := x
  ofCount _ := .zero

theorem run_operator_agrees_mixed : (object mixedRows).Fits ∧
    Server.runOperator noArithmetic insertionSort Operator.sort.id mixedRows
        [(units "field", .text (units "x"))] =
      Browser.runOperator noArithmetic insertionSort Operator.sort.id mixedRows
        [(units "field", .text (units "x"))] := by
  have hf : (object mixedRows).Fits := by
    intro n hn
    have hl : (object mixedRows).lengths = [3] := rfl
    rw [hl, mem_singleton] at hn
    omega
  exact ⟨hf, run_operator_agrees _ _ _ _ _ _ hf⟩

end LeafWeb.Lab
