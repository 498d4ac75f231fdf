import LeafWeb.Mutation.Emit
import LeafWeb.Mutation.Idempotent

namespace LeafWeb.Mutation

open Lib List Line String Shape

variable {s t : String} {fields known : List String}

section

def lineBreak (c : Char) : Bool :=
  c ∈ ['\n', '\r', '\x0b', '\x0c', '\x1c', '\x1d', '\x1e', '\x85', '\u2028', '\u2029']

def plainChar (c : Char) : Bool := c ≠ '|' && !lineBreak c

def Plain (s : String) : Prop := ∀ c ∈ s.toList, plainChar c

variable {c sep : Char}

lemma toNat_lt_of_le {d : Char} (h : c.val ≤ d.val) (hd : d.toNat < 128) : c.toNat < 128 :=
  lt_of_le_of_lt (UInt32.le_iff_toNat_le.mp h) hd

lemma isAlphanum_lt (h : c.isAlphanum) : c.toNat < 128 := by
  rcases Bool.or_eq_true_iff.mp h with ha | hd
  · rcases Bool.or_eq_true_iff.mp ha with hu | hl
    · exact toNat_lt_of_le (d := 'Z') (of_decide_eq_true hu).2 (by decide)
    · exact toNat_lt_of_le (d := 'z') (of_decide_eq_true (Bool.and_eq_true_iff.mp hl).2) (by decide)
  · exact toNat_lt_of_le (d := '9') (of_decide_eq_true (Bool.and_eq_true_iff.mp hd).2) (by decide)

lemma layerTail_lt (h : layerTail c) : c.toNat < 128 := by
  simp only [layerTail, Bool.or_eq_true, decide_eq_true_eq] at h
  rcases h with ((((h | rfl) | rfl) | rfl) | rfl) | rfl
  · exact isAlphanum_lt h
  all_goals decide

lemma numeral_lt (h : numeral c) : c.toNat < 128 := by
  simp only [numeral, Bool.or_eq_true, decide_eq_true_eq, mem_cons, not_mem_nil, or_false] at h
  rcases h with h | rfl | rfl | rfl | rfl | rfl | rfl | rfl | rfl
  · exact isAlphanum_lt (Bool.or_eq_true_iff.mpr (.inr h))
  all_goals decide

lemma printable_lt (h : printable c) : c.toNat < 128 := by
  simp only [printable, Bool.and_eq_true, decide_eq_true_eq] at h
  omega

lemma plain_class {P : Char → Bool} (ha : ∀ c, P c → c.toNat < 128)
    (h : ∀ n < 128, P (Char.ofNat n) → plainChar (Char.ofNat n)) (hs : ∀ c ∈ s.toList, P c) : Plain s := by
  intro c hc
  have hp := ascii_cases (P := fun c => P c → plainChar c) h (ha c (hs c hc))
  exact hp (hs c hc)

lemma plain_of_numeral (h : s.toList.all numeral) : Plain s :=
  plain_class (fun _ => numeral_lt) (by decide) (all_eq_true.mp h)

lemma plain_of_safeName (h : safeName s) : Plain s :=
  plain_class (fun _ => layerTail_lt) (by decide) (layerTail_of_safeName h)

lemma plain_of_printable (h : s.toList.all fun c => printable c && c ≠ '|') : Plain s := by
  refine plain_class (P := fun c => printable c && c ≠ '|') ?_ (by decide) (all_eq_true.mp h)
  intro c hc
  exact printable_lt (Bool.and_eq_true_iff.mp hc).1

lemma lowerAscii_of_not_plain (h : plainChar c = false) : lowerAscii c = c := by
  simp only [plainChar, lineBreak, Bool.and_eq_false_iff, decide_eq_false_iff_not, not_not,
    Bool.not_eq_false', decide_eq_true_eq, mem_cons, not_mem_nil, or_false] at h
  rcases h with rfl | rfl | rfl | rfl | rfl | rfl | rfl | rfl | rfl | rfl | rfl <;> decide

lemma layerTail_lowerAscii (h : layerTail c) : layerTail (lowerAscii c) := by
  have ha := ascii_cases (P := fun c => layerTail c → layerTail (lowerAscii c)) (by decide) (layerTail_lt h)
  exact ha h

lemma plain_of_lowerText (h : lowerText s = lowerText t) (ht : safeName t) : Plain s := by
  intro c hc
  by_contra hn
  have hf : plainChar c = false := by simpa using hn
  have hm : lowerAscii c ∈ t.toList.map lowerAscii := by
    have hl : s.toList.map lowerAscii = t.toList.map lowerAscii := ofList_inj.mp h
    rw [← hl]
    exact mem_map_of_mem hc
  obtain ⟨d, hd, heq⟩ := mem_map.mp hm
  have htl := layerTail_lowerAscii (layerTail_of_safeName ht d hd)
  rw [heq, lowerAscii_of_not_plain hf] at htl
  have hp := ascii_cases (P := fun c => layerTail c → plainChar c) (by decide) (layerTail_lt htl)
  exact hn (hp htl)

lemma plain_of_spelling (h : spelling known t = some s) (ht : safeName t) : Plain s := by
  have hl : lowerText s = lowerText t := by simpa using find?_some h
  exact plain_of_lowerText hl ht

lemma plain_canonicalizeLayer {layers : Option (List String)} (h : safeName s) :
    Plain (canonicalizeLayer s layers) := by
  unfold canonicalizeLayer
  cases hf : spelling (layers.getD []) s with
  | none => exact plain_of_safeName h
  | some t => exact plain_of_spelling hf h

lemma plain_joined (hs : plainChar sep) (h : ∀ f ∈ fields, Plain f) : Plain (joined sep fields) := by
  intro c hc
  rcases mem_joined hc with rfl | ⟨f, hf, hc⟩
  · exact hs
  · exact h f hf c hc

lemma all_numeral_nat (n : ℕ) : (toString n).toList.all numeral := by
  rw [all_eq_true]
  intro c hc
  have hd : c.isDigit := by
    apply Nat.isDigit_of_mem_toDigits (b := 10) (n := n) (by decide) (by decide)
    rwa [← Nat.toList_repr]
  simp [numeral, hd]

lemma all_numeral_int (n : ℤ) : (toString n).toList.all numeral := by
  cases n with
  | ofNat n => exact all_numeral_nat n
  | negSucc n =>
    have ht : toString (Int.negSucc n) = "-" ++ toString (n + 1) := rfl
    rw [ht, toList_append, all_append, all_numeral_nat, Bool.and_true]
    decide

lemma hexDigits_of_safeExisting (h : safeExisting s) : ∀ c ∈ s.toList, hexDigit c := by
  simp only [safeExisting, isHex, Bool.and_eq_true, all_eq_true] at h
  exact h.1.2

lemma hexDigit_lt (h : hexDigit c) : c.toNat < 128 := printable_lt (printable_of_hexDigit h)

lemma plain_of_safeExisting (h : safeExisting s) : Plain s :=
  plain_class (fun _ => hexDigit_lt) (by decide) (hexDigits_of_safeExisting h)

end

variable {l : Line}

def readFlag (s : String) : Option Bool := if s = "1" then some true else if s = "0" then some false else none

def tags : List Tag :=
  [.relayer, .setPoints, .setCircle, .setArc, .blockChild, .addBlockDef, .removeGroup, .remove, .transform,
    .add, .addOpen, .addLine, .addCircle, .addArc, .addInsert, .addDimLinear, .addDimAligned, .addMleader,
    .setColor, .setLinetype, .setLineweight, .addGroup]

def Tag.ofText (s : String) : Option Tag := tags.find? fun t => t.text = s

def readChild (kind : String) : List String → Option (Outline × String × String × String)
  | [closed, normal, elevation, vertices, aci, linetype, lineweight] =>
    if kind = "LWPOLYLINE" then
      (readFlag closed).map fun b => (.lwpolyline b ⟨normal, elevation, vertices⟩, aci, linetype, lineweight)
    else if kind = "ARC" then some (.arc closed normal elevation vertices, aci, linetype, lineweight)
    else none
  | [first, second, aci, linetype, lineweight] =>
    if kind = "LINE" then some (.line first second, aci, linetype, lineweight)
    else if kind = "CIRCLE" then some (.circle first second, aci, linetype, lineweight)
    else none
  | _ => none

def readArgs : Tag → List String → Option Line
  | .relayer, [handle, layer] => some (.relayer handle layer)
  | .setPoints, [handle, closed, normal, elevation, vertices] =>
    (readFlag closed).map fun b => .setPoints handle b ⟨normal, elevation, vertices⟩
  | .setCircle, [handle, centre, radius] => some (.setCircle handle centre radius)
  | .setArc, [handle, centre, radius, start, stop] => some (.setArc handle centre radius start stop)
  | .blockChild, name :: ordinal :: kind :: layer :: rest =>
    (readChild kind rest).map fun x => .blockChild name ordinal layer x.1 x.2.1 x.2.2.1 x.2.2.2
  | .addBlockDef, [name, base, members] => some (.addBlockDef name base (split ';' members))
  | .removeGroup, [name] => some (.removeGroup name)
  | .remove, [handle] => some (.remove handle)
  | .transform, [handle, normal, elevation, vertices] =>
    some (.transform handle ⟨normal, elevation, vertices⟩)
  | .add, [layer, normal, elevation, vertices] => some (.add layer ⟨normal, elevation, vertices⟩)
  | .addOpen, [layer, normal, elevation, vertices] => some (.addOpen layer ⟨normal, elevation, vertices⟩)
  | .addLine, [layer, first, second] => some (.addLine layer first second)
  | .addCircle, [layer, centre, radius] => some (.addCircle layer centre radius)
  | .addArc, [layer, centre, radius, start, stop] => some (.addArc layer centre radius start stop)
  | .addInsert, [layer, name, point, rot, scale] => some (.addInsert layer name point rot scale)
  | .addDimLinear, [layer, style, def1, def2, dimline, rotation] =>
    some (.addDimLinear layer style def1 def2 dimline rotation)
  | .addDimAligned, [layer, style, def1, def2, dimline] =>
    some (.addDimAligned layer style def1 def2 dimline)
  | .addMleader, [layer, style, first, second, text] => some (.addMleader layer style first second text)
  | .setColor, [target, value] => some (.setColor target value)
  | .setLinetype, [target, value] => some (.setLinetype target value)
  | .setLineweight, [target, value] => some (.setLineweight target value)
  | .addGroup, [name, members] => some (.addGroup name (split ';' members))
  | _, _ => none

def readLine : List String → Option Line
  | [] => none
  | tag :: args => (Tag.ofText tag).bind fun t => readArgs t args

lemma ofText_text (t : Tag) : Tag.ofText t.text = some t := by
  cases t <;> decide

def Line.members : Line → Option (List String)
  | .addBlockDef _ _ members | .addGroup _ members => some members
  | _ => none

structure Line.Fits (l : Line) : Prop where
  plain : ∀ f ∈ l.fields, Plain f
  listed : ∀ ms ∈ l.members, ms ≠ [] ∧ ∀ m ∈ ms, ';' ∉ m.toList

lemma readFlag_flag (b : Bool) : readFlag (flag b) = some b := by
  cases b <;> rfl

lemma Line.Fits.split_text (h : l.Fits) : split '|' l.text = l.fields := by
  refine split_joined ?_ (cons_ne_nil _ _)
  intro f hf hb
  exact absurd (h.plain f hf '|' hb) (by decide)

lemma Line.Fits.read (h : l.Fits) : readLine l.fields = some l := by
  have hm : ∀ ms ∈ l.members, split ';' (joined ';' ms) = ms := by
    intro ms hms
    obtain ⟨hne, hs⟩ := h.listed ms hms
    exact split_joined hs hne
  have ha : readArgs l.tag l.args = some l := by
    cases l with
    | setPoints handle closed plane =>
      simp [tag, args, Plane.fields, readArgs, readFlag_flag]
    | blockChild name ordinal layer outline aci linetype lineweight =>
      cases outline with
      | lwpolyline closed plane =>
        simp [tag, args, Outline.fields, Outline.kind, Plane.fields, readArgs, readChild, readFlag_flag]
      | line | circle | arc => rfl
    | addBlockDef name base members =>
      simp [tag, args, readArgs, hm members rfl]
    | addGroup name members =>
      simp [tag, args, readArgs, hm members rfl]
    | _ => rfl
  rw [fields, readLine, ofText_text, Option.bind_some, ha]

variable {A : Arith} {F : Format} {v n h base name r : String}

lemma plain_fmt (q : ℚ) : Plain (fmt F q) := plain_of_numeral (F.general_numeral _)

lemma plain_fmt3 (p : Pt) : Plain (fmt3 F p) := by
  refine plain_joined (by decide) ?_
  intro f hf
  obtain ⟨q, -, rfl⟩ := mem_map.mp hf
  exact plain_fmt q

lemma plain_fixed3 (places : ℕ) (p : Pt) : Plain (fixed3 F places p) := by
  refine plain_joined (by decide) ?_
  intro f hf
  obtain ⟨q, -, rfl⟩ := mem_map.mp hf
  exact plain_of_numeral (F.fixed_numeral places q)

lemma plain_plane (l : Lowered) : ∀ f ∈ (l.plane F).fields, Plain f := by
  simp only [Plane.fields, forall_mem_cons, not_mem_nil, false_imp_iff, implies_true, and_true]
  refine ⟨plain_fmt3 _, plain_fmt _, plain_joined (by decide) ?_⟩
  intro f hf
  obtain ⟨p, -, rfl⟩ := mem_map.mp hf
  refine plain_joined (by decide) ?_
  simp only [forall_mem_cons, not_mem_nil, false_imp_iff, implies_true, and_true]
  exact ⟨plain_fmt _, plain_fmt _⟩

lemma plain_tag (t : Tag) : Plain t.text := by
  cases t <;> exact plain_of_safeName (by decide)

lemma plain_flag (b : Bool) : Plain (flag b) := by
  cases b <;> exact plain_of_safeName (by decide)

def Ref (s : String) : Prop := Plain s ∧ ';' ∉ s.toList

lemma ref_append (hs : Ref s) (ht : Ref t) : Ref (s ++ t) := by
  unfold Ref Plain at *
  simp only [toList_append, mem_append]
  refine ⟨fun c hc => hc.elim (hs.1 c) (ht.1 c), fun hc => hc.elim hs.2 ht.2⟩

lemma ref_of_safeExisting (h : safeExisting s) : Ref s := by
  refine ⟨plain_of_safeExisting h, fun hm => ?_⟩
  exact absurd (hexDigits_of_safeExisting h ';' hm) (by decide)

lemma ref_of_nat (n : ℕ) : Ref (toString n) := by
  refine ⟨plain_of_numeral (all_numeral_nat n), fun hm => ?_⟩
  exact absurd (all_eq_true.mp (all_numeral_nat n) ';' hm) (by decide)

lemma ref_H : Ref "H:" := ⟨plain_of_printable (by decide), by decide⟩

lemma ref_A : Ref "A:" := ⟨plain_of_printable (by decide), by decide⟩

lemma ref_C : Ref "C:" := ⟨plain_of_printable (by decide), by decide⟩

lemma plain_of_groupNamed (h : GroupNamed s) : Plain s := by
  apply plain_of_printable
  rw [all_eq_true]
  intro c hc
  have hch := all_eq_true.mp h.2.2.2 c hc
  simp only [groupChar, Bool.and_eq_true] at hch ⊢
  refine ⟨hch.1, decide_eq_true ?_⟩
  rintro rfl
  exact absurd hch.2 (by decide)

lemma plain_of_groupName (h : groupName v = .ok s) : Plain (upperText s) := by
  obtain ⟨rfl, hn⟩ := groupName_eq_ok.mp h
  rw [upperText_again hn.printable]
  exact plain_of_groupNamed hn

lemma plain_of_blockNamed (h : BlockNamed s) : Plain s := by
  apply plain_of_printable
  rw [all_eq_true]
  intro c hc
  refine Bool.and_eq_true_iff.mpr ⟨all_eq_true.mp h.2.2 c hc, decide_eq_true ?_⟩
  rintro rfl
  exact h.1 (by simp [hc])

lemma plain_of_leaderText (h : LeaderText s) : Plain s := by
  apply plain_of_printable
  rw [all_eq_true]
  intro c hc
  have hch := all_eq_true.mp h.2.2 c hc
  simp only [mleaderChar, Bool.and_eq_true] at hch
  exact Bool.and_eq_true_iff.mpr ⟨hch.1.1.1, hch.1.1.2⟩

lemma plain_of_definitionNamed (h : DefinitionNamed s) : Plain s := by
  apply plain_of_printable
  by_contra hn
  exact h (.inr (.inr hn))

lemma plain_of_linetypeValue (h : linetypeValue known v = .ok n) : Plain n := by
  obtain ⟨hsf, hs⟩ := linetypeValue_eq_ok.mp h
  exact plain_of_spelling hs hsf

lemma plain_linetype {raw : RawAdded} {style : Style} (h : styleOf known raw = .ok style) :
    ∀ n ∈ style.linetype, Plain n := by
  obtain ⟨-, hl, -⟩ := styleOf_eq_ok.mp h
  intro n hn
  rw [perhaps_eq_ok, Option.mem_def.mp hn] at hl
  generalize raw.linetype = named at hl
  cases hl with
  | some h => exact plain_of_linetypeValue h

variable {intake : Intake} {flags : Flags} {raw : Raw} {c : Canonical} {b d : BlockDef}
  {members removed : List String} {a : Added}

def Shape.texts : Shape → List String
  | .insert name .. => [name]
  | .linear _ _ _ style .. => [style]
  | .aligned _ _ _ style _ => [style]
  | .mleader style _ _ text => [style, text]
  | _ => []

lemma Adds.plain {kind : AddKind} {p : Placed} {s : Setting} {raw : RawAdded} {layer : String}
    (h : Adds s raw p kind layer) : Plain p.layer ∧ ∀ t ∈ p.shape.texts, Plain t := by
  refine ⟨?_, ?_⟩
  · rw [h.placed]
    cases kind with
    | mleader | insert | dimension => exact plain_canonicalizeLayer h.named
    | _ => exact plain_of_safeName h.named
  · have hs := h.shape
    cases kind with
    | mleader =>
      obtain ⟨named, style, p, q, text, heq, -, hsf, hst, -, -, -, ⟨-, ht⟩, -⟩ := mleaderShape_eq_ok.mp hs
      have hp : Plain style := by
        rcases mleaderStyle_eq_ok.mp hst with ⟨-, rfl⟩ | ⟨_, entry, -, hf, -, hn⟩
        · exact plain_of_safeName hsf
        have hl := find?_some hf
        simp only [hn, Option.any_some, decide_eq_true_eq] at hl
        exact plain_of_lowerText hl hsf
      rw [heq]
      simp [texts, hp, plain_of_leaderText ht]
    | insert =>
      obtain ⟨name, pt, rot, scale, heq, hi, -⟩ := insertShape_eq_ok.mp hs
      rw [heq]
      simp [texts, plain_of_blockNamed hi.named.2]
    | dimension =>
      obtain ⟨_, _, _, _, _, _, style, -, hm, hst, -, heq⟩ := dimensionShape_eq_ok.mp hs
      have hp := plain_of_safeName (dimensionStyle_eq_ok.mp hst).2.1
      rw [heq]
      cases hm <;> simp [texts, hp]
    | lwpolyline =>
      simp only [shapeOf, bind_eq_ok, lwpolylineShape_eq_ok] at hs
      obtain ⟨_, -, _, _, heq, -⟩ := hs
      simp [heq, texts]
    | line =>
      simp only [shapeOf, bind_eq_ok, lineShape_eq_ok] at hs
      obtain ⟨_, -, _, _, heq, -⟩ := hs
      simp [heq, texts]
    | circle =>
      simp only [shapeOf, bind_eq_ok, circleShape_eq_ok] at hs
      obtain ⟨_, -, _, _, heq, -⟩ := hs
      simp [heq, texts]
    | arc =>
      simp only [shapeOf, bind_eq_ok, arcShape_eq_ok] at hs
      obtain ⟨_, -, _, _, _, _, heq, -⟩ := hs
      simp [heq, texts]

structure TidyBlock (b : BlockDef) : Prop where
  name : Plain b.name
  members : ∀ h ∈ b.members, safeExisting h
  some : b.members ≠ [] ∨ b.children.getD [] ≠ []
  children : ∀ child ∈ b.children.getD [], Plain child.layer ∧ ∀ n ∈ child.style.linetype, Plain n
  ordered : checkOrder b.members (b.children.getD []).length b.order = .ok ()

structure Tidy (c : Canonical) : Prop where
  removed : ∀ h ∈ c.removed, safeExisting h
  transforms : ∀ t ∈ c.transforms, safeExisting t.handle
  setLayer : ∀ s ∈ c.setLayer, safeExisting s.handle ∧ Plain s.layer
  setPoints : ∀ s ∈ c.setPoints, safeExisting s.handle
  setCircle : ∀ s ∈ c.setCircle, safeExisting s.handle
  setArc : ∀ s ∈ c.setArc, safeExisting s.handle
  added : ∀ a ∈ c.added, Plain a.layer ∧ (∀ t ∈ a.shape.texts, Plain t) ∧ ∀ n ∈ a.style.linetype, Plain n
  blockDefs : ∀ b ∈ c.blockDefs, TidyBlock b
  removedGroups : ∀ n ∈ c.removedGroups, Plain (upperText n) ∧ n ≠ ""
  addedGroups : ∀ g ∈ c.addedGroups, Plain (upperText g.name) ∧ g.members ≠ [] ∧ ∀ m ∈ g.members, Ref m.text
  setColor : ∀ op ∈ c.setColor, safeExisting op.handle
  setLinetype : ∀ op ∈ c.setLinetype, safeExisting op.handle ∧ Plain op.value
  setLineweight : ∀ op ∈ c.setLineweight, safeExisting op.handle

lemma ref_handle (hh : safeExisting h) : Ref s!"H:{h}" := ref_append ref_H (ref_of_safeExisting hh)

lemma ref_add (n : ℕ) : Ref s!"A:{n}" := ref_append ref_A (ref_of_nat n)

lemma Joins.ref {m : Member} {o : Ordinals} {raw : RawMember} (h : Joins intake removed o raw m) : Ref m.text := by
  cases h with
  | handle h hs _ _ _ => exact ref_handle (safeExisting_upperText hs)
  | add n _ _ => exact ref_add _

lemma Defines.tidy {index : Index} {b : RawBlockDef} (h : Defines A intake index raw b d) : TidyBlock d where
  name := plain_of_definitionNamed h.named
  members x hx := (h.fits x hx).safe
  some := by
    by_contra hn
    simp only [not_or, not_not] at hn
    have hs := h.size.1
    rw [hn.1, hn.2] at hs
    exact absurd hs (by decide)
  children child hc := by
    obtain ⟨ha, -⟩ := getD_of_rel h.children
    obtain ⟨i, hi, rfl⟩ := mem_iff_getElem.mp hc
    have hi' : i < (b.children.getD []).length := by rwa [ha.length_eq]
    have hf := ha.get hi' hi
    obtain ⟨kind, layer, hadd⟩ := hf.adds
    exact ⟨hadd.plain.1, plain_linetype hf.style⟩
  ordered := h.ordered

lemma tidy_of_validated (h : validateMutations A intake flags raw = .ok c) : Tidy c := by
  obtain ⟨index, ds, p, -, hds, -, hp, rfl⟩ := validateMutations_eq_ok.mp h
  refine
    { removed := ?_, transforms := ?_, setLayer := ?_, setPoints := ?_, setCircle := ?_, setArc := ?_,
      added := ?_, blockDefs := ?_, removedGroups := ?_, addedGroups := ?_, setColor := ?_,
      setLinetype := ?_, setLineweight := ?_ }
  · intro x hx
    obtain ⟨_, -, hbs⟩ := hp.removed.exists_base (mem_sortOn.mp hx)
    exact hbs.2.1
  · intro t ht
    obtain ⟨_, -, hbs⟩ := hp.transforms.exists_base (mem_sortOn.mp ht)
    exact hbs.safe
  · intro s hs
    obtain ⟨_, -, -, hl, _, htr, -⟩ := hp.setLayer.exists_base (mem_sortOn.mp hs)
    exact ⟨htr.safe, plain_of_safeName hl⟩
  · intro s hs
    obtain ⟨_, -, _, hbs⟩ := hp.setPoints.exists_base (mem_sortOn.mp hs)
    exact hbs.target.safe
  · intro s hs
    obtain ⟨_, -, ⟨_, hbs⟩, -⟩ := hp.setCircle.exists_base (mem_sortOn.mp hs)
    exact hbs.target.safe
  · intro s hs
    obtain ⟨_, -, ⟨_, hbs⟩, -⟩ := hp.setArc.exists_base (mem_sortOn.mp hs)
    exact hbs.target.safe
  · intro a ha
    obtain ⟨_, -, ⟨kind, layer, hadd⟩, hst⟩ := hp.mem_added ha
    exact ⟨hadd.plain.1, hadd.plain.2, plain_linetype hst⟩
  · intro b hb
    obtain ⟨d, hd, rfl⟩ := mem_map.mp hb
    obtain ⟨_, -, hdf⟩ := hds.exists_raw (mem_sortOn.mp hd)
    exact ⟨hdf.tidy.name, hdf.tidy.members, hdf.tidy.some, hdf.tidy.children, hdf.tidy.ordered⟩
  · intro n hn
    obtain ⟨_, -, hnm, -⟩ := hp.removedGroups.exists_base (mem_sortOn.mp hn)
    refine ⟨plain_of_groupName hnm, ?_⟩
    rintro rfl
    exact absurd (groupName_eq_ok.mp hnm).2.2.1 (by decide)
  · intro g hg
    obtain ⟨r, -, hgr⟩ := hp.groups.exists_base (mem_sortOn.mp hg)
    refine ⟨plain_of_groupName hgr.named, ?_, ?_⟩
    · rintro hnil
      have hlen := hgr.joins.length_eq
      rw [hnil] at hlen
      exact hgr.enough (by rw [hlen]; decide)
    · intro m hm
      obtain ⟨i, hi, rfl⟩ := mem_iff_getElem.mp hm
      have hi' : i < r.members.length := by rwa [hgr.joins.length_eq]
      exact (hgr.joins.get hi' hi).ref
  · intro op hop
    obtain ⟨_, -, hbs⟩ := hp.setColor.exists_base (mem_sortOn.mp hop)
    exact hbs.safe
  · intro op hop
    obtain ⟨_, -, hbs⟩ := hp.setLinetype.exists_base (mem_sortOn.mp hop)
    exact ⟨hbs.safe, plain_of_linetypeValue hbs.value⟩
  · intro op hop
    obtain ⟨_, -, hbs⟩ := hp.setLineweight.exists_base (mem_sortOn.mp hop)
    exact hbs.safe

lemma fits_of_args (hm : l.members = none) (h : ∀ f ∈ l.args, Plain f) : l.Fits where
  plain := by
    intro f hf
    rcases mem_cons.mp hf with rfl | hf
    · exact plain_tag _
    · exact h f hf
  listed ms hms := by rw [hm] at hms; cases hms

lemma TidyBlock.refs (h : TidyBlock b)
    (hmb : blockMembers b = .ok members) : members ≠ [] ∧ ∀ m ∈ members, Ref m := by
  have he : ∀ m ∈ expectedOrder b.members (b.children.getD []).length, Ref m := by
    intro m hm
    rcases mem_append.mp hm with hm | hm
    · obtain ⟨x, hx, rfl⟩ := mem_map.mp hm
      exact ref_handle (h.members x hx)
    · obtain ⟨i, -, rfl⟩ := mem_map.mp hm
      exact ref_append ref_C (ref_of_nat i)
  unfold blockMembers at hmb
  split_ifs at hmb with hc
  · have ho := h.ordered
    simp only [checkOrder, bind_eq_ok, refuse_eq_ok, exists_const] at ho
    have hl := not_not.mp fun hn => ho.2 ⟨members, demand_eq_ok.mp hmb, hn⟩
    refine ⟨?_, fun m hm => he m (hl.2.1 m hm)⟩
    rintro rfl
    have hp : 0 < (b.children.getD []).length := length_pos_iff.mpr hc
    have hf : s!"C:{0}" ∈ expectedOrder b.members (b.children.getD []).length :=
      mem_append_right _ (mem_map.mpr ⟨0, mem_range.mpr hp, rfl⟩)
    exact absurd (hl.2.2 _ hf) not_mem_nil
  · cases hmb
    refine ⟨fun hnil => ?_, ?_⟩
    · exact h.some.elim (fun hm => hm (map_eq_nil_iff.mp hnil)) hc
    intro m hm
    obtain ⟨x, hx, rfl⟩ := mem_map.mp hm
    exact ref_handle (h.members x hx)

lemma fits_added (hl : Plain a.layer) (ht : ∀ t ∈ a.shape.texts, Plain t) (h : addLine A F a = .ok l) :
    l.Fits := by
  unfold addLine at h
  split at h
  all_goals simp only [bind_eq_ok, pure_eq_ok] at h
  · obtain ⟨lo, -, rfl⟩ := h
    exact fits_of_args rfl (forall_mem_cons.mpr ⟨hl, plain_plane lo⟩)
  · obtain ⟨lo, -, rfl⟩ := h
    exact fits_of_args rfl (forall_mem_cons.mpr ⟨hl, plain_plane lo⟩)
  all_goals
    rename_i heq
    rw [heq] at ht
    subst h
    refine fits_of_args rfl ?_
    simp only [texts, args, forall_mem_cons] at ht ⊢
    simp [hl, ht, plain_fmt, plain_fmt3, plain_fixed3, plain_of_numeral, F.fixed_numeral]

lemma plain_outline {o : Outline} {s : Shape} (h : childOutline A F s = .ok o) : Plain o.kind ∧
    ∀ f ∈ o.fields, Plain f := by
  have hk : Plain o.kind := by
    apply plain_of_safeName
    cases o <;> simp only [Outline.kind] <;> decide
  refine ⟨hk, ?_⟩
  cases s with
  | lwpolyline closed pts _ =>
    simp only [childOutline, bind_eq_ok, pure_eq_ok] at h
    obtain ⟨lo, -, rfl⟩ := h
    exact forall_mem_cons.mpr ⟨plain_flag _, plain_plane lo⟩
  | line | circle | arc =>
    cases h
    simp [Outline.fields, plain_fmt, plain_fmt3]
  | _ => cases h

lemma fits_blockChild {n : ℕ} {child : Child} (hb : TidyBlock b) (hc : child ∈ b.children.getD [])
    (h : blockChildLine A F b.name n child = .ok l) : l.Fits := by
  obtain ⟨hly, hln⟩ := hb.children child hc
  simp only [blockChildLine, bind_eq_ok, pure_eq_ok] at h
  obtain ⟨o, ho, rfl⟩ := h
  obtain ⟨hk, hfl⟩ := plain_outline ho
  have hn : Plain (child.style.linetype.getD "ByLayer") := by
    cases hl : child.style.linetype with
    | none => exact plain_of_safeName (by decide)
    | some n => exact hln n hl
  refine fits_of_args rfl ?_
  intro f hf
  simp only [args, mem_append, mem_cons, not_mem_nil, or_false] at hf
  rcases hf with ((rfl | rfl | rfl | rfl) | hf) | rfl | rfl | rfl
  · exact hb.name
  · exact (ref_of_nat n).1
  · exact hk
  · exact hly
  · exact hfl f hf
  · exact plain_of_numeral (all_numeral_int _)
  · exact hn
  · exact plain_of_numeral (all_numeral_int _)

lemma fits_members (hn : Plain name) (hb : Plain base) (hne : members ≠ []) (hr : ∀ m ∈ members, Ref m) :
    (addBlockDef name base members).Fits ∧ (addGroup name members).Fits := by
  have hj : Plain (joined ';' members) := plain_joined (by decide) fun m hm => (hr m hm).1
  have hl : ∀ ms ∈ some members, ms ≠ [] ∧ ∀ m ∈ ms, ';' ∉ m.toList := by
    rintro ms hms
    cases hms
    exact ⟨hne, fun m hm => (hr m hm).2⟩
  refine ⟨⟨?_, hl⟩, ⟨?_, hl⟩⟩
  all_goals simp [fields, args, plain_tag, hn, hb, hj]

lemma fits_setting (hr : Plain r) (hv : Plain v) :
    (setColor r v).Fits ∧ (setLinetype r v).Fits ∧ (setLineweight r v).Fits := by
  refine ⟨fits_of_args rfl ?_, fits_of_args rfl ?_, fits_of_args rfl ?_⟩
  all_goals simp [args, hr, hv]

lemma Arises.fits (hc : Tidy c) (h : Arises A F c l) : l.Fits := by
  have hi : ∀ n : ℤ, Plain (toString n) := fun n => plain_of_numeral (all_numeral_int n)
  cases h with
  | setLayer s hs =>
    obtain ⟨hhn, hly⟩ := hc.setLayer s hs
    refine fits_of_args rfl ?_
    simp [setLayerLine, args, plain_of_safeExisting hhn, hly]
  | setPoints s _ hs hl =>
    obtain ⟨lo, rfl⟩ := of_setPointsLine hl
    refine fits_of_args rfl ?_
    exact forall_mem_cons.mpr ⟨plain_of_safeExisting (hc.setPoints s hs),
      forall_mem_cons.mpr ⟨plain_flag _, plain_plane lo⟩⟩
  | setCircle s hs =>
    refine fits_of_args rfl ?_
    simp [setCircleLine, args, plain_of_safeExisting (hc.setCircle s hs), plain_fmt, plain_fmt3]
  | setArc s hs =>
    refine fits_of_args rfl ?_
    simp [setArcLine, args, plain_of_safeExisting (hc.setArc s hs), plain_fmt, plain_fmt3]
  | blockChild b child n _ hb hch hl => exact fits_blockChild (hc.blockDefs b hb) hch hl
  | blockDef b members hb hmb =>
    obtain ⟨hne, hr⟩ := (hc.blockDefs b hb).refs hmb
    exact (fits_members (hc.blockDefs b hb).name (plain_fixed3 3 b.base) hne hr).1
  | removeGroup n hn =>
    refine fits_of_args rfl ?_
    simp [args, (hc.removedGroups n hn).1]
  | remove h hh =>
    refine fits_of_args rfl ?_
    simp [args, plain_of_safeExisting (hc.removed h hh)]
  | transform t existing _ ht hl =>
    obtain ⟨lo, rfl⟩ := of_transformLine hl
    exact fits_of_args rfl (forall_mem_cons.mpr ⟨plain_of_safeExisting (hc.transforms t ht), plain_plane lo⟩)
  | added a _ ha hl => exact fits_added (hc.added a ha).1 (hc.added a ha).2.1 hl
  | color op hop => exact (fits_setting (ref_handle (hc.setColor op hop)).1 (hi op.value)).1
  | linetype op hop =>
    exact (fits_setting (ref_handle (hc.setLinetype op hop).1).1 (hc.setLinetype op hop).2).2.1
  | lineweight op hop => exact (fits_setting (ref_handle (hc.setLineweight op hop)).1 (hi op.value)).2.2
  | addedColor a n v ha hv => exact (fits_setting (ref_add n).1 (hi v)).1
  | addedLinetype a n v ha hv => exact (fits_setting (ref_add n).1 ((hc.added a ha).2.2 v hv)).2.1
  | addedLineweight a n v ha hv => exact (fits_setting (ref_add n).1 (hi v)).2.2
  | group g hg =>
    obtain ⟨hnm, hne, hr⟩ := hc.addedGroups g hg
    have he : Plain "" := by simp [Plain]
    refine (fits_members hnm he ?_ ?_).2
    · exact fun hnil => hne (map_eq_nil_iff.mp hnil)
    intro m hm
    obtain ⟨x, hx, rfl⟩ := mem_map.mp hm
    exact hr x hx

def Tag.v3 : Tag → Bool
  | .blockChild | .addBlockDef | .removeGroup | .addInsert | .addDimLinear | .addDimAligned | .addMleader
  | .setColor | .setLinetype | .setLineweight | .addGroup => true
  | _ => false

lemma v3_of_addLine (h : addLine A F a = .ok l) (hl : l.tag.v3) : a.shape.v3 := by
  unfold addLine at h
  split at h
  all_goals simp only [bind_eq_ok, pure_eq_ok] at h
  · obtain ⟨_, -, rfl⟩ := h
    cases hl
  · obtain ⟨_, -, rfl⟩ := h
    cases hl
  all_goals
    rename_i heq
    rw [heq]
    subst h
    first | rfl | cases hl

lemma usesV3_of_added (ha : a ∈ c.added) (h : a.shape.v3 ∨ a.style ≠ .plain) : usesV3 c := by
  have hany : (c.added.any fun a => a.shape.v3 || a.style ≠ .plain) = true :=
    any_eq_true.mpr ⟨a, ha, by simpa using h⟩
  rw [usesV3, hany, Bool.or_true]

lemma Arises.v3 (hc : Tidy c) (h : Arises A F c l) (hl : l.tag.v3) : usesV3 c := by
  cases h with
  | setLayer | setCircle | setArc | remove => cases hl
  | setPoints s _ hs hm =>
    obtain ⟨_, rfl⟩ := of_setPointsLine hm
    cases hl
  | transform t existing _ ht hm =>
    obtain ⟨_, rfl⟩ := of_transformLine hm
    cases hl
  | blockChild b _ _ _ hb => simp [usesV3, ne_nil_of_mem hb]
  | blockDef b _ hb => simp [usesV3, ne_nil_of_mem hb]
  | removeGroup n hn =>
    have hany : (c.removedGroups.any fun n => n ≠ "") = true :=
      any_eq_true.mpr ⟨n, hn, decide_eq_true (hc.removedGroups n hn).2⟩
    simp only [usesV3, hany, Bool.or_true, Bool.true_or]
  | added a _ ha hm => exact usesV3_of_added ha (.inl (v3_of_addLine hm hl))
  | color op hop => simp [usesV3, ne_nil_of_mem hop]
  | linetype op hop => simp [usesV3, ne_nil_of_mem hop]
  | lineweight op hop => simp [usesV3, ne_nil_of_mem hop]
  | addedColor a n v ha hv | addedLinetype a n v ha hv | addedLineweight a n v ha hv =>
    refine usesV3_of_added ha (.inr ?_)
    intro hp
    rw [hp] at hv
    cases hv
  | group g hg => simp [usesV3, ne_nil_of_mem hg]

variable {sha text field : String} {baseIntake : Option Intake} {contract : Option ℤ}

def readPlan (text : String) : Option (List String × List String × List Line) :=
  match split '\n' text with
  | header :: digest :: rest =>
    (rest.dropLast.mapM fun line => readLine (split '|' line)).map fun ops =>
      (split '|' header, split '|' digest, ops)
  | _ => none

lemma emitPlan_eq_ok (h : emitPlan A F c sha baseIntake contract = .ok text) :
    isDigest sha ∧ (usesV3 c → planVersion c contract = 3) ∧
      ∃ ops, planLines A F c baseIntake = .ok ops ∧
        text = joined '\n' (planHeader (planVersion c contract) sha ++ ops.map Line.text ++ [""]) := by
  simp only [emitPlan, bind_eq_ok, refuse_eq_ok, pure_eq_ok, exists_const] at h
  obtain ⟨hd, -, hv, ops, ho, -, -, rfl⟩ := h
  refine ⟨not_not.mp hd, fun hv3 => ?_, ops, ho, rfl⟩
  exact not_not.mp fun hne => hv ⟨hv3, hne⟩

lemma plain_of_isDigest (h : isDigest sha) : Plain sha := by
  simp only [isDigest, Bool.and_eq_true, all_eq_true] at h
  refine plain_class (P := hexDigit) (fun _ => hexDigit_lt) (by decide) ?_
  intro d hd
  rw [hexDigit, h.2 d hd, Bool.true_or]

lemma newline_of_plain (h : ∀ f ∈ fields, Plain f) : '\n' ∉ (joined '|' fields).toList := by
  intro hm
  rcases mem_joined hm with heq | ⟨f, hf, hc⟩
  · exact absurd heq (by decide)
  · exact absurd (h f hf _ hc) (by decide)

lemma split_header {tag : String} (ht : Plain tag) (hfl : Plain field) :
    split '|' (joined '|' [tag, field]) = [tag, field] ∧ '\n' ∉ (joined '|' [tag, field]).toList := by
  have hp : ∀ f ∈ [tag, field], Plain f := by simp [ht, hfl]
  refine ⟨split_joined ?_ (cons_ne_nil _ _), newline_of_plain hp⟩
  intro f hf hb
  exact absurd (hp f hf '|' hb) (by decide)

lemma readLine_text (h : l.Fits) : readLine (split '|' l.text) = some l := by
  rw [h.split_text, h.read]

lemma emitted_lines (hc : validateMutations A intake flags raw = .ok c)
    (h : emitPlan A F c sha baseIntake contract = .ok text) :
    ∃ ops, planLines A F c baseIntake = .ok ops ∧ (∀ l ∈ ops, l.Fits) ∧
      split '\n' text = planHeader (planVersion c contract) sha ++ ops.map Line.text ++ [""] ∧
      readPlan text =
        some (["LEAF_MUTATION_PLAN", toString (planVersion c contract)], ["BASE_SHA256", sha], ops) := by
  obtain ⟨hd, -, ops, ho, rfl⟩ := emitPlan_eq_ok h
  have hft : ∀ l ∈ ops, l.Fits := fun l hl => (arises_planLines ho hl).fits (tidy_of_validated hc)
  have hp : Plain "LEAF_MUTATION_PLAN" := plain_of_safeName (by decide)
  have hb : Plain "BASE_SHA256" := plain_of_safeName (by decide)
  obtain ⟨hf, hf'⟩ := split_header hp (plain_of_numeral (all_numeral_int (planVersion c contract)))
  obtain ⟨hs, hs'⟩ := split_header hb (plain_of_isDigest hd)
  have hln : ∀ line ∈ planHeader (planVersion c contract) sha ++ ops.map text ++ [""], '\n' ∉ line.toList := by
    intro line hli
    simp only [planHeader, mem_append, mem_cons, not_mem_nil, or_false, mem_map] at hli
    rcases hli with ((rfl | rfl) | ⟨l, hl, rfl⟩) | rfl
    · exact hf'
    · exact hs'
    · exact newline_of_plain (hft l hl).plain
    · decide
  have hsp := split_joined hln (by simp)
  refine ⟨ops, ho, hft, hsp, ?_⟩
  have hr : (ops.map text).mapM (fun line => readLine (split '|' line)) = some ops :=
    mapM_map_eq_some fun l hl => readLine_text (hft l hl)
  rw [readPlan, hsp]
  simp only [planHeader, cons_append, nil_append, dropLast_concat, hr, Option.map_some, hf, hs]

theorem plan_text_is_data (hc : validateMutations A intake flags raw = .ok c)
    (h : emitPlan A F c sha baseIntake contract = .ok text) :
    ∃ ops, planLines A F c baseIntake = .ok ops ∧
      split '\n' text = planHeader (planVersion c contract) sha ++ ops.map Line.text ++ [""] ∧
      readPlan text = some (["LEAF_MUTATION_PLAN", toString (planVersion c contract)], ["BASE_SHA256", sha], ops) ∧
      (∀ l ∈ ops, split '|' l.text = l.fields ∧ ∀ f ∈ l.fields, Plain f) ∧
      ((usesV3 c ∨ ∃ l ∈ ops, l.tag.v3) → planVersion c contract = 3) := by
  obtain ⟨ops, ho, hf, hs, hr⟩ := emitted_lines hc h
  obtain ⟨-, hv, -⟩ := emitPlan_eq_ok h
  refine ⟨ops, ho, hs, hr, fun l hl => ⟨(hf l hl).split_text, (hf l hl).plain⟩, ?_⟩
  rintro (hv3 | ⟨l, hl, hv3⟩)
  · exact hv hv3
  · exact hv ((arises_planLines ho hl).v3 (tidy_of_validated hc) hv3)

def wholeFormat : Format where
  general q := toString q.num
  fixed _ q := toString q.num
  general_numeral q := all_numeral_int q.num
  fixed_numeral _ q := all_numeral_int q.num

def blankDigest : String := "".pushn '0' 64

def alignedPlan : String :=
  joined '\n' ["LEAF_MUTATION_PLAN|3", joined '|' ["BASE_SHA256", blankDigest],
    "ADDDIMALIGNED|0|Standard|0,0,0|3,4,0|3,4,0", ""]

theorem aligned_plan_is_data :
    validateMutations exactArith .blank .default (alignedAdd 3 4) = .ok (alignedCanonical 3 4) ∧
      emitPlan exactArith wholeFormat (alignedCanonical 3 4) blankDigest none none = .ok alignedPlan ∧
      ∃ ops, planLines exactArith wholeFormat (alignedCanonical 3 4) none = .ok ops ∧
        split '\n' alignedPlan = planHeader (planVersion (alignedCanonical 3 4) none) blankDigest ++
          ops.map Line.text ++ [""] ∧
        readPlan alignedPlan =
          some (["LEAF_MUTATION_PLAN", toString (planVersion (alignedCanonical 3 4) none)],
            ["BASE_SHA256", blankDigest], ops) ∧
        (∀ l ∈ ops, split '|' l.text = l.fields ∧ ∀ f ∈ l.fields, Plain f) ∧
        ((usesV3 (alignedCanonical 3 4) ∨ ∃ l ∈ ops, l.tag.v3) → planVersion (alignedCanonical 3 4) none = 3) := by
  have hc : validateMutations exactArith .blank .default (alignedAdd 3 4) =
      .ok (alignedCanonical 3 4) := by decide +kernel
  have h : emitPlan exactArith wholeFormat (alignedCanonical 3 4) blankDigest none none =
      .ok alignedPlan := by decide +kernel
  exact ⟨hc, h, plan_text_is_data hc h⟩

end LeafWeb.Mutation
