import LeafWeb.Lab.Canonical
import LeafWeb.Lab.ReadingBack

namespace LeafWeb.Lab

open Lib List Option Json Writer

mutual

def Json.arrange (before : Text → Text → Bool) : Json → Json
  | .array items => .array (arrangeItems before items)
  | .object fields => .object (sortFields before (arrangeFields before fields))
  | .null => .null
  | .bool b => .bool b
  | .number x => .number x
  | .text s => .text s

def arrangeItems (before : Text → Text → Bool) : List Json → List Json
  | [] => []
  | v :: vs => v.arrange before :: arrangeItems before vs

def arrangeFields (before : Text → Text → Bool) : List (Text × Json) → List (Text × Json)
  | [] => []
  | (key, v) :: fields => (key, v.arrange before) :: arrangeFields before fields

end

lemma sortFields_perm {A : Type} (before : Text → Text → Bool) (fields : List (Text × A)) :
    (sortFields before fields).Perm fields :=
  mergeSort_perm _ _

variable {ts : List (List Char)} {v : Json}

namespace Writer

variable (w : Writer)

mutual

def plain : Json → Option (List Char)
  | .null => some ['n', 'u', 'l', 'l']
  | .bool true => some ['t', 'r', 'u', 'e']
  | .bool false => some ['f', 'a', 'l', 's', 'e']
  | .number x => w.number x
  | .text s => w.string s
  | .array items => (plainItems items).map fun texts => '[' :: commaSeparated texts ++ [']']
  | .object fields =>
    (plainFields fields).map fun texts => '\x7b' :: commaSeparated texts ++ ['\x7d']

def plainItems : List Json → Option (List (List Char))
  | [] => some []
  | v :: vs => do
    let text ← plain v
    let texts ← plainItems vs
    return text :: texts

def plainFields : List (Text × Json) → Option (List (List Char))
  | [] => some []
  | (key, v) :: fields => do
    let name ← w.string key
    let text ← plain v
    let texts ← plainFields fields
    return (name ++ ':' :: text) :: texts

end

variable {w} in

lemma plainItems_cons_eq_some {vs : List Json} (h : w.plainItems (v :: vs) = some ts) :
    ∃ t texts, w.plain v = some t ∧ w.plainItems vs = some texts ∧ ts = t :: texts := by
  simp only [plainItems, bind_eq_bind, bind_eq_some_iff] at h
  obtain ⟨t, ht, texts, htx, hts⟩ := h
  exact ⟨t, texts, ht, htx, (some.inj hts).symm⟩

variable {w} in

lemma plainFields_cons_eq_some {fs : List (Text × Json)} {key : Text}
    (h : w.plainFields ((key, v) :: fs) = some ts) :
    ∃ name t texts, w.string key = some name ∧ w.plain v = some t ∧
      w.plainFields fs = some texts ∧ ts = (name ++ ':' :: t) :: texts := by
  simp only [plainFields, bind_eq_bind, bind_eq_some_iff] at h
  obtain ⟨name, hnm, t, ht, texts, htx, hts⟩ := h
  exact ⟨name, t, texts, hnm, ht, htx, (some.inj hts).symm⟩

def fieldText (f : Text × Json) : Option (Text × List Char) :=
  (w.string f.1).bind fun name => (w.plain f.2).map fun text => (f.1, name ++ ':' :: text)

lemma plainFields_eq (fields : List (Text × Json)) :
    w.plainFields fields = (fields.mapM w.fieldText).map (map Prod.snd) := by
  induction fields with
  | nil => rfl
  | cons f fields ih =>
    obtain ⟨key, v⟩ := f
    rw [plainFields, ih, mapM_cons, fieldText]
    cases w.string key <;> cases w.plain v <;> cases fields.mapM w.fieldText <;> rfl

lemma mapM_sortFields (fields : List (Text × Json)) :
    (sortFields w.before fields).mapM w.fieldText = (fields.mapM w.fieldText).map (sortFields w.before) := by
  by_cases ha : ∀ f ∈ fields, (w.fieldText f).isSome
  · have htx : ∀ l : List (Text × Json), (∀ f ∈ l, f ∈ fields) →
        l.mapM w.fieldText = some (l.map fun f => (f.1, ((w.fieldText f).map Prod.snd).getD [])) := by
      intro l hl
      induction l with
      | nil => rfl
      | cons f l ih =>
        obtain ⟨t, ht⟩ := isSome_iff_exists.mp (ha f (hl f mem_cons_self))
        have hk : t.1 = f.1 := by
          rw [fieldText, bind_eq_some_iff] at ht
          obtain ⟨name, -, ht⟩ := ht
          obtain ⟨text, -, rfl⟩ := map_eq_some_iff.mp ht
          rfl
        rw [mapM_cons, ih fun g hg => hl g (mem_cons_of_mem _ hg), ht, map_cons, ht]
        exact congrArg (fun k => some ((k, t.2) :: _)) hk
    rw [htx _ fun f hf => hf, htx _ fun f hf => (sortFields_perm w.before fields).mem_iff.mp hf,
      map_some, sortFields, map_mergeSort]
    · rfl
    · intro f _ g _
      rfl
  · push Not at ha
    obtain ⟨f, hf, hno⟩ := ha
    have hr : ∀ l : List (Text × Json), f ∈ l → l.mapM w.fieldText = none := by
      intro l hl
      induction l with
      | nil => exact absurd hl not_mem_nil
      | cons g l ih =>
        rw [mapM_cons]
        rcases mem_cons.mp hl with rfl | hl
        · rw [not_isSome_iff_eq_none.mp hno]
          rfl
        · rw [ih hl]
          cases w.fieldText g <;> rfl
    rw [hr fields hf, hr _ ((sortFields_perm w.before fields).mem_iff.mpr hf)]
    rfl

mutual

lemma encode_eq_plain (v : Json) : w.encode v = w.plain (v.arrange w.before) := by
  cases v with
  | null | number | text => rfl
  | bool b => cases b <;> rfl
  | array items =>
    rw [encode, arrange, plain, encodeItems_eq_plain items]
    cases w.plainItems (arrangeItems w.before items) <;> rfl
  | object fields =>
    rw [encode, arrange, plain, plainFields_eq, mapM_sortFields, encodeFields_eq_plain fields]
    cases (arrangeFields w.before fields).mapM w.fieldText <;> rfl

lemma encodeItems_eq_plain (items : List Json) :
    w.encodeItems items = w.plainItems (arrangeItems w.before items) := by
  cases items with
  | nil => rfl
  | cons v vs => rw [encodeItems, arrangeItems, plainItems, encode_eq_plain v, encodeItems_eq_plain vs]

lemma encodeFields_eq_plain (fields : List (Text × Json)) :
    w.encodeFields fields = (arrangeFields w.before fields).mapM w.fieldText := by
  cases fields with
  | nil => rfl
  | cons f fields =>
    obtain ⟨key, v⟩ := f
    rw [encodeFields, arrangeFields, mapM_cons, fieldText, encode_eq_plain v, encodeFields_eq_plain fields]
    cases w.string key <;> cases w.plain (v.arrange w.before) <;>
      cases (arrangeFields w.before fields).mapM w.fieldText <;> rfl

end

end Writer

def Stops (r : List Char) : Prop := ∀ c rest, r = c :: rest → numeral c = false

lemma stops_nil : Stops [] := by
  intro c rest h
  cases h

lemma stops_cons {c : Char} (h : numeral c = false) (r : List Char) : Stops (c :: r) := by
  rintro c' r' heq
  rw [← (cons.inj heq).1]
  exact h

variable {r r' t u : List Char} {c d : ℕ} {s s' : Text} {number number' : Binary64 → Option (List Char)}
  {close : Char} {ts' : List (List Char)}

lemma split_numerals (ht : ∀ c ∈ t, numeral c) (hu : ∀ c ∈ u, numeral c) (hr : Stops r)
    (hr' : Stops r') (h : t ++ r = u ++ r') : t = u ∧ r = r' := by
  induction t generalizing u with
  | nil =>
    cases u with
    | nil => exact ⟨rfl, h⟩
    | cons d u =>
      have := hr d (u ++ r') h
      rw [hu d mem_cons_self] at this
      exact absurd this (by decide)
  | cons c t ih =>
    cases u with
    | nil =>
      have := hr' c (t ++ r) h.symm
      rw [ht c mem_cons_self] at this
      exact absurd this (by decide)
    | cons d u =>
      obtain ⟨rfl, htl⟩ := cons.inj h
      obtain ⟨rfl, hrs⟩ :=
        ih (fun c hc => ht c (mem_cons_of_mem _ hc)) (fun c hc => hu c (mem_cons_of_mem _ hc)) htl
      exact ⟨rfl, hrs⟩

lemma lookup_eq_none_of_ne (h : pythonEscapes.lookup c = none) : c ≠ 0x22 ∧ c ≠ 0x5c := by
  constructor
  all_goals
    rintro rfl
    exact absurd h (by decide)

lemma mem_of_lookup {A B : Type} [BEq A] [LawfulBEq A] {l : List (A × B)} {a : A} {b : B}
    (h : l.lookup a = some b) : (a, b) ∈ l := by
  obtain ⟨_, _, rfl, -⟩ := lookup_eq_some_iff.mp h
  simp

inductive Escaped (c : ℕ) : List Char → Prop where
  | short {e : Char} (h : (c, e) ∈ pythonEscapes) : Escaped c ['\\', e]
  | control (h : c < 0x20) : Escaped c (hexEscape c)
  | plain (h1 : c ≠ 0x22) (h2 : c ≠ 0x5c) : Escaped c [Char.ofNat c]

lemma escaped_escape (c : ℕ) : Escaped c (escape pythonEscapes c) := by
  rw [escape]
  split
  next e h =>
    exact .short (mem_of_lookup h)
  rename_i h
  split_ifs with hc
  · exact .control hc
  · exact .plain (lookup_eq_none_of_ne h).1 (lookup_eq_none_of_ne h).2

lemma pythonEscapes_injective : ∀ p ∈ pythonEscapes, ∀ q ∈ pythonEscapes, p.2 = q.2 → p = q := by
  decide

lemma pythonEscapes_ne_u : ∀ p ∈ pythonEscapes, p.2 ≠ 'u' := by decide

lemma hexEscape_injective : ∀ c < 0x20, ∀ d < 0x20, hexEscape c = hexEscape d → c = d := by decide

lemma toNat_ofNat (h : c < 0x110000) (hs : isSurrogate c = false) : (Char.ofNat c).toNat = c := by
  have hv : c.isValidChar := by
    simp only [isSurrogate, Bool.and_eq_false_iff, decide_eq_false_iff_not] at hs
    omega
  rw [Char.ofNat, dif_pos hv]
  rfl

def Scalar (c : ℕ) : Prop := c < 0x110000 ∧ isSurrogate c = false

lemma Escaped.split (ht : Escaped c t) (hu : Escaped d u) (hc : Scalar c) (hd : Scalar d)
    (h : t ++ r = u ++ r') : c = d ∧ r = r' := by
  have hb : ∀ {c : ℕ}, Scalar c → c ≠ 0x5c → '\\' ≠ Char.ofNat c := by
    intro c hc hne heq
    have := congrArg Char.toNat heq
    rw [toNat_ofNat hc.1 hc.2] at this
    exact hne this.symm
  cases ht with
  | short he =>
    cases hu with
    | short he' =>
      simp only [cons_append, cons.injEq, true_and] at h
      exact ⟨congrArg Prod.fst (pythonEscapes_injective _ he _ he' h.1), h.2⟩
    | control =>
      simp only [hexEscape, cons_append, cons.injEq, true_and] at h
      exact absurd h.1 (pythonEscapes_ne_u _ he)
    | plain _ h2 => exact absurd (cons.inj h).1 (hb hd h2)
  | control hlt =>
    cases hu with
    | short he' =>
      simp only [hexEscape, cons_append, cons.injEq, true_and] at h
      exact absurd h.1.symm (pythonEscapes_ne_u _ he')
    | control hlt' =>
      obtain ⟨h1, h2⟩ := append_inj h rfl
      exact ⟨hexEscape_injective c hlt d hlt' h1, h2⟩
    | plain _ h2 => exact absurd (cons.inj h).1 (hb hd h2)
  | plain h1 h2 =>
    cases hu with
    | short | control => exact absurd (cons.inj h).1.symm (hb hc h2)
    | plain =>
      obtain ⟨hch, hr⟩ := cons.inj h
      have := congrArg Char.toNat hch
      rw [toNat_ofNat hc.1 hc.2, toNat_ofNat hd.1 hd.2] at this
      exact ⟨this, hr⟩

lemma Escaped.ne_quote (ht : Escaped c t) (hc : Scalar c) : t ++ r ≠ '"' :: r' := by
  cases ht with
  | short | control => exact fun h => absurd (cons.inj h).1 (by decide)
  | plain h1 =>
    intro h
    have := congrArg Char.toNat (cons.inj h).1
    rw [toNat_ofNat hc.1 hc.2] at this
    exact h1 this

lemma split_escapes {cs ds : List ℕ} (hcs : ∀ c ∈ cs, Scalar c) (hds : ∀ d ∈ ds, Scalar d)
    (h : cs.flatMap (escape pythonEscapes) ++ '"' :: r = ds.flatMap (escape pythonEscapes) ++ '"' :: r') :
    cs = ds ∧ r = r' := by
  induction cs generalizing ds with
  | nil =>
    cases ds with
    | nil => exact ⟨rfl, (cons.inj h).2⟩
    | cons d ds =>
      rw [flatMap_cons, append_assoc] at h
      exact absurd h.symm ((escaped_escape d).ne_quote (hds d mem_cons_self))
  | cons c cs ih =>
    cases ds with
    | nil =>
      rw [flatMap_cons, append_assoc] at h
      exact absurd h ((escaped_escape c).ne_quote (hcs c mem_cons_self))
    | cons d ds =>
      rw [flatMap_cons, flatMap_cons, append_assoc, append_assoc] at h
      obtain ⟨rfl, ht⟩ := (escaped_escape c).split (escaped_escape d) (hcs c mem_cons_self) (hds d mem_cons_self) h
      obtain ⟨rfl, hr⟩ :=
        ih (fun c hc => hcs c (mem_cons_of_mem _ hc)) (fun d hd => hds d (mem_cons_of_mem _ hd)) ht
      exact ⟨rfl, hr⟩

lemma serverString_eq_some (h : serverString s = some t) :
    (∀ c ∈ codePoints s, Scalar c) ∧ t = quote pythonEscapes s := by
  rw [serverString] at h
  split_ifs at h with hs
  refine ⟨?_, (some.inj h).symm⟩
  intro c hc
  refine ⟨codePoints_lt hc, ?_⟩
  by_contra hsur
  exact hs (any_eq_true.mpr ⟨c, hc, by simpa using hsur⟩)

lemma split_strings (ht : serverString s = some t) (hu : serverString s' = some u)
    (h : t ++ r = u ++ r') : s = s' ∧ r = r' := by
  obtain ⟨hs, rfl⟩ := serverString_eq_some ht
  obtain ⟨hs', rfl⟩ := serverString_eq_some hu
  simp only [quote, cons_append, append_assoc, cons.injEq, true_and] at h
  obtain ⟨hp, hr⟩ := split_escapes hs hs' h
  exact ⟨codePoints_injective hp, hr⟩

mutual

def Json.Alike (R : Binary64 → Binary64 → Prop) : Json → Json → Prop
  | .null, .null => True
  | .bool a, .bool b => a = b
  | .number a, .number b => R a b
  | .text s, .text s' => s = s'
  | .array vs, .array us => AlikeItems R vs us
  | .object fs, .object gs => AlikeFields R fs gs
  | _, _ => False

def AlikeItems (R : Binary64 → Binary64 → Prop) : List Json → List Json → Prop
  | [], [] => True
  | v :: vs, u :: us => v.Alike R u ∧ AlikeItems R vs us
  | _, _ => False

def AlikeFields (R : Binary64 → Binary64 → Prop) :
    List (Text × Json) → List (Text × Json) → Prop
  | [], [] => True
  | (k, v) :: fs, (l, u) :: gs => k = l ∧ v.Alike R u ∧ AlikeFields R fs gs
  | _, _ => False

end

def jsonWriter (number : Binary64 → Option (List Char)) : Writer :=
  { serverWriter with number := number }

def Numerals (number : Binary64 → Option (List Char)) : Prop :=
  ∀ x t, number x = some t → t ≠ [] ∧ ∀ c ∈ t, numeral c

def Json.kind : Json → ℕ
  | .null => 1
  | .bool _ => 2
  | .number _ => 3
  | .text _ => 4
  | .array _ => 5
  | .object _ => 6

def kindOf (c : Char) : ℕ :=
  if c = 'n' then 1 else if c = 't' ∨ c = 'f' then 2 else if numeral c then 3 else if c = '"' then 4
  else if c = '[' then 5 else if c = '\x7b' then 6 else 0

section

variable (hn : Numerals number) (hn' : Numerals number')

include hn

lemma exists_plain_eq_cons (h : (jsonWriter number).plain v = some t) : ∃ c r, t = c :: r ∧ kindOf c = v.kind := by
  cases v with
  | null => exact ⟨_, _, (some.inj h).symm, rfl⟩
  | bool b => cases b <;> exact ⟨_, _, (some.inj h).symm, rfl⟩
  | number x =>
    obtain ⟨hne, ha⟩ := hn x t h
    obtain ⟨c, r, rfl⟩ := exists_cons_of_ne_nil hne
    have hc := ha c mem_cons_self
    refine ⟨c, r, rfl, ?_⟩
    have h1 : c ≠ 'n' := by rintro rfl; exact absurd hc (by decide)
    have h2 : ¬ (c = 't' ∨ c = 'f') := by rintro (rfl | rfl) <;> exact absurd hc (by decide)
    rw [kindOf, if_neg h1, if_neg h2, if_pos hc, kind]
  | text s => exact ⟨_, _, (serverString_eq_some h).2, rfl⟩
  | array | object =>
    obtain ⟨texts, -, rfl⟩ := map_eq_some_iff.mp h
    exact ⟨_, _, rfl, rfl⟩

include hn'

lemma kind_eq_of_append {t' : List Char} {u : Json} (ht : (jsonWriter number).plain v = some t)
    (ht' : (jsonWriter number').plain u = some t') (h : t ++ r = t' ++ r') : v.kind = u.kind := by
  obtain ⟨c, s, rfl, hc⟩ := exists_plain_eq_cons hn ht
  obtain ⟨d, s', rfl, hd⟩ := exists_plain_eq_cons hn' ht'
  rw [← hc, ← hd, (cons.inj h).1]

end

def afterItem (close : Char) (r : List Char) : List (List Char) → List Char
  | [] => close :: r
  | ts => ',' :: (commaSeparated ts ++ close :: r)

lemma commaSeparated_cons (t : List Char) (ts : List (List Char)) (close : Char) (r : List Char) :
    commaSeparated (t :: ts) ++ close :: r = t ++ afterItem close r ts := by
  cases ts with
  | nil => simp [commaSeparated, afterItem]
  | cons t' ts => simp [commaSeparated, afterItem]

lemma stops_afterItem (h : numeral close = false) (r : List Char)
    (ts : List (List Char)) : Stops (afterItem close r ts) := by
  cases ts with
  | nil => exact stops_cons h r
  | cons t ts => exact stops_cons (by decide) _

lemma of_afterItem_eq (hc : close ≠ ',') (h : afterItem close r ts = afterItem close r' ts') :
    commaSeparated ts ++ close :: r = commaSeparated ts' ++ close :: r' := by
  cases ts with
  | nil =>
    cases ts' with
    | nil => exact congrArg (commaSeparated [] ++ ·) h
    | cons t' ts' => exact absurd (cons.inj h).1 hc
  | cons t ts =>
    cases ts' with
    | nil => exact absurd (cons.inj h).1.symm hc
    | cons t' ts' => exact (cons.inj h).2

def Closes (c : Char) : Prop := c = ']' ∨ c = '\x7d'

lemma Closes.facts {c : Char} (h : Closes c) : numeral c = false ∧ kindOf c = 0 ∧ c ≠ ',' := by
  rcases h with rfl | rfl <;> decide

mutual

lemma plain_split (hn : Numerals number) (hn' : Numerals number') (v u : Json)
    {t t' r r' : List Char} (ht : (jsonWriter number).plain v = some t)
    (ht' : (jsonWriter number').plain u = some t') (hr : Stops r) (hr' : Stops r')
    (h : t ++ r = t' ++ r') : v.Alike (fun a b => number a = number' b) u ∧ r = r' := by
  have hk := kind_eq_of_append hn hn' ht ht' h
  cases v with
  | null =>
    cases u with
    | null =>
      obtain rfl := some.inj ht
      obtain rfl := some.inj ht'
      exact ⟨trivial, append_cancel_left h⟩
    | _ => exact absurd hk (by simp [kind])
  | bool b =>
    cases u with
    | bool b' =>
      cases b <;> cases b' <;> obtain rfl := some.inj ht <;>
        obtain rfl := some.inj ht'
      · exact ⟨rfl, append_cancel_left h⟩
      · exact absurd (cons.inj h).1 (by decide)
      · exact absurd (cons.inj h).1 (by decide)
      · exact ⟨rfl, append_cancel_left h⟩
    | _ => exact absurd hk (by simp [kind])
  | number x =>
    cases u with
    | number y =>
      obtain ⟨rfl, hrs⟩ := split_numerals (hn x t ht).2 (hn' y t' ht').2 hr hr' h
      exact ⟨Eq.trans ht ht'.symm, hrs⟩
    | _ => exact absurd hk (by simp [kind])
  | text s =>
    cases u with
    | text s' => exact split_strings ht ht' h
    | _ => exact absurd hk (by simp [kind])
  | array items =>
    cases u with
    | array items' =>
      obtain ⟨texts, hts, rfl⟩ := map_eq_some_iff.mp ht
      obtain ⟨texts', hts', rfl⟩ := map_eq_some_iff.mp ht'
      simp only [cons_append, append_assoc, cons.injEq, true_and, nil_append] at h
      exact items_split hn hn' items items' (.inl rfl) hts hts' h
    | _ => exact absurd hk (by simp [kind])
  | object fields =>
    cases u with
    | object fields' =>
      obtain ⟨texts, hts, rfl⟩ := map_eq_some_iff.mp ht
      obtain ⟨texts', hts', rfl⟩ := map_eq_some_iff.mp ht'
      simp only [cons_append, append_assoc, cons.injEq, true_and, nil_append] at h
      exact fields_split hn hn' fields fields' (.inr rfl) hts hts' h
    | _ => exact absurd hk (by simp [kind])

lemma items_split (hn : Numerals number) (hn' : Numerals number') (vs us : List Json)
    {ts ts' : List (List Char)} {close : Char} {r r' : List Char} (hcl : Closes close)
    (hts : (jsonWriter number).plainItems vs = some ts) (hts' : (jsonWriter number').plainItems us = some ts')
    (h : commaSeparated ts ++ close :: r = commaSeparated ts' ++ close :: r') :
    AlikeItems (fun a b => number a = number' b) vs us ∧ r = r' := by
  obtain ⟨hs, hk, hcm⟩ := hcl.facts
  cases vs with
  | nil =>
    obtain rfl := some.inj hts
    cases us with
    | nil =>
      obtain rfl := some.inj hts'
      exact ⟨trivial, (cons.inj h).2⟩
    | cons u us =>
      obtain ⟨t, texts, ht, -, rfl⟩ := plainItems_cons_eq_some hts'
      obtain ⟨c, s, rfl, hc⟩ := exists_plain_eq_cons hn' ht
      rw [commaSeparated_cons] at h
      rw [← (cons.inj h).1, hk] at hc
      exact absurd hc (by cases u <;> simp [kind])
  | cons v vs =>
    obtain ⟨t, texts, ht, htx, rfl⟩ := plainItems_cons_eq_some hts
    rw [commaSeparated_cons] at h
    cases us with
    | nil =>
      obtain rfl := some.inj hts'
      obtain ⟨c, s, rfl, hc⟩ := exists_plain_eq_cons hn ht
      rw [(cons.inj h).1, hk] at hc
      exact absurd hc (by cases v <;> simp [kind])
    | cons u us =>
      obtain ⟨t', texts', ht', htx', rfl⟩ := plainItems_cons_eq_some hts'
      rw [commaSeparated_cons] at h
      obtain ⟨hv, ha⟩ :=
        plain_split hn hn' v u ht ht' (stops_afterItem hs r texts) (stops_afterItem hs r' texts') h
      obtain ⟨hvs, hr⟩ := items_split hn hn' vs us hcl htx htx' (of_afterItem_eq hcm ha)
      exact ⟨⟨hv, hvs⟩, hr⟩

lemma fields_split (hn : Numerals number) (hn' : Numerals number') (fs gs : List (Text × Json))
    {ts ts' : List (List Char)} {close : Char} {r r' : List Char} (hc : Closes close)
    (hts : (jsonWriter number).plainFields fs = some ts) (hts' : (jsonWriter number').plainFields gs = some ts')
    (h : commaSeparated ts ++ close :: r = commaSeparated ts' ++ close :: r') :
    AlikeFields (fun a b => number a = number' b) fs gs ∧ r = r' := by
  obtain ⟨hs, hk, hcm⟩ := hc.facts
  cases fs with
  | nil =>
    obtain rfl := some.inj hts
    cases gs with
    | nil =>
      obtain rfl := some.inj hts'
      exact ⟨trivial, (cons.inj h).2⟩
    | cons g gs =>
      obtain ⟨key', u⟩ := g
      obtain ⟨name, t, texts, hnm, -, -, rfl⟩ := plainFields_cons_eq_some hts'
      rw [commaSeparated_cons, (serverString_eq_some hnm).2] at h
      rw [(cons.inj h).1] at hk
      exact absurd hk (by decide)
  | cons f fs =>
    obtain ⟨key, v⟩ := f
    obtain ⟨name, t, texts, hnm, ht, htx, rfl⟩ := plainFields_cons_eq_some hts
    rw [commaSeparated_cons] at h
    cases gs with
    | nil =>
      obtain rfl := some.inj hts'
      rw [(serverString_eq_some hnm).2] at h
      rw [← (cons.inj h).1] at hk
      exact absurd hk (by decide)
    | cons g gs =>
      obtain ⟨key', u⟩ := g
      obtain ⟨name', t', texts', hnm', ht', htx', rfl⟩ := plainFields_cons_eq_some hts'
      rw [commaSeparated_cons, append_assoc, append_assoc] at h
      obtain ⟨hkey, hcl⟩ := split_strings hnm hnm' h
      obtain ⟨hv, ha⟩ := plain_split hn hn' v u ht ht' (stops_afterItem hs r texts)
        (stops_afterItem hs r' texts') (cons.inj hcl).2
      obtain ⟨hfs, hr⟩ := fields_split hn hn' fs gs hc htx htx' (of_afterItem_eq hcm ha)
      exact ⟨⟨hkey, hv, hfs⟩, hr⟩

end

end LeafWeb.Lab
