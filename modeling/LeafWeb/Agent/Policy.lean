import LeafWeb.Lib.Gather

/-! Agent policies: what tier retunes and tenant overlays make of a catalog action. -/

namespace LeafWeb.Agent

open Lib Option

inductive Policy where
  | auto | confirmOnce | alwaysConfirm

def Policy.order : Policy → ℕ
  | auto => 0
  | confirmOnce => 1
  | alwaysConfirm => 2

inductive Value where
  | other -- null, a float or a list
  | bool (b : Bool)
  | int (n : ℤ)
  | str (s : String)
  | object (fields : List (String × Value))

inductive PolicyError where
  | notMapping | notCatalog (name : String) | unknownFields | policyValue | loosening | flagValue | reenable
  | notPostgres | noRevision | stale

structure AgentAction where
  name : String
  policy : Policy
  (enabled tenantTightenable : Bool)

structure Fields where
  policy : Option Policy
  enabled : Option Bool

def Value.mapping : Value → Except PolicyError (List (String × Value))
  | .object fields => .ok fields
  | _ => .error .notMapping

def Policy.read : Value → Option Policy
  | .str "auto" => some auto
  | .str "confirm-once" => some confirmOnce
  | .str "always-confirm" => some alwaysConfirm
  | _ => none

section

/-! `token` is `str.strip().lower()`. -/

variable (token : String → String)

def securityFlag : Value → Option Bool
  | .bool b => some b
  | .int 0 => some false
  | .int 1 => some true
  | .str s =>
    if token s ∈ ["true", "yes", "on", "1"] then some true
    else if token s ∈ ["false", "no", "off", "0"] then some false else none
  | _ => none

/-- An entry of the tier overrides, where only `locked` actions refuse a looser policy, or of an overlay. -/
def readFields (locked : Bool) (base : AgentAction) (fields : List (String × Value)) :
    Except PolicyError Fields := do
  refuse (∃ field ∈ fields, field.1 ∉ ["policy", "enabled"]) .unknownFields
  let policy ← perhaps (fun value => do
    let new ← demand (Policy.read value) .policyValue
    refuse (locked ∧ new.order < base.policy.order) .loosening
    return new) (fields.lookup "policy")
  let enabled ← perhaps (fun value => do
    let new ← demand (securityFlag token value) .flagValue
    refuse (new ∧ ¬ base.enabled) .reenable
    return new) (fields.lookup "enabled")
  return ⟨policy, enabled⟩

structure Catalog where
  actions : String → Option AgentAction
  named : ∀ {name action}, actions name = some action → action.name = name

structure AgentPolicy extends Catalog where
  tierOverrides : List (String × List (String × Fields))

def parseTierAction (catalog : Catalog) (item : String × Value) : Except PolicyError (String × Fields) := do
  let base ← demand (catalog.actions item.1) (.notCatalog item.1)
  let fields ← item.2.mapping
  return (item.1, ← readFields token (!base.tenantTightenable) base fields)

def parseTierOverrides (catalog : Catalog) (raw : Value) :
    Except PolicyError (List (String × List (String × Fields))) := do
  let tiers ← raw.mapping
  gather (fun _ tier => do
    let perAction ← tier.2.mapping
    return (tier.1, ← gather (fun _ => parseTierAction token catalog) [] perAction)) [] tiers

def parse (catalog : Catalog) (raw : Value) : Except PolicyError AgentPolicy := do
  return { catalog with tierOverrides := ← parseTierOverrides token catalog raw }

def AgentAction.replace (action : AgentAction) (fields : Fields) : AgentAction :=
  { action with policy := fields.policy.getD action.policy, enabled := fields.enabled.getD action.enabled }

def tierFields (policy : AgentPolicy) (tier : Option String) (name : String) : Option Fields := do
  (← policy.tierOverrides.lookup (← tier.filter (· ≠ ""))).lookup name

def applyTierOverrides (policy : AgentPolicy) (action : AgentAction) (tier : Option String) : AgentAction :=
  match tierFields policy tier action.name with
  | none => action
  | some fields => action.replace fields

def applyTenantOverlay (action : AgentAction) : Option Value → Except PolicyError AgentAction
  | none => .ok action
  | some overlay => do
    match (← overlay.mapping).lookup action.name with
    | none => return action
    | some entry => return action.replace (← readFields token true action (← entry.mapping))

def effectiveAction (policy : AgentPolicy) (name : String) (tier : Option String) (overlay : Option Value) :
    Except PolicyError (Option AgentAction) :=
  match policy.actions name with
  | none => .ok none
  | some base => do return some (← applyTenantOverlay token (applyTierOverrides policy base tier) overlay)

def setTenantOverlay {E : Type} (policy : AgentPolicy) (usingPostgres : Bool) (expectedRevision : Option ℤ)
    (store : Value → ℤ → Option E) (overlay : Value) : Except PolicyError E := do
  refuse (¬ usingPostgres) .notPostgres
  let revision ← demand expectedRevision .noRevision
  let items ← overlay.mapping
  let _ ← gather (fun _ item => do
    let action ← demand (policy.actions item.1) (.notCatalog item.1)
    applyTenantOverlay token action (some (.object [item]))) [] items
  demand (store overlay revision) .stale

end

section

variable {A B E : Type} {read : A → Option B} {bad : B → Prop} [DecidablePred bad] {why why' : E}

lemma perhaps_read {o : Option A} {r : Option B} :
    perhaps (fun a => do
      let b ← demand (read a) why
      refuse (bad b) why'
      return b) o = .ok r ↔ (r = o.bind read ∧ r.isSome = o.isSome) ∧ ∀ b ∈ r, ¬ bad b := by
  rw [perhaps_eq_ok]
  cases o with
  | none => cases r <;> simp
  | some a =>
    cases r with
    | none => simp
    | some b =>
      simp only [rel_some_some, bind_demand, bind_refuse, pure_eq_ok]
      grind

end

def written (token : String → String) (fields : List (String × Value)) : Fields :=
  ⟨(fields.lookup "policy").bind Policy.read, (fields.lookup "enabled").bind (securityFlag token)⟩

def Readable (token : String → String) (fields : List (String × Value)) : Prop :=
  (∀ field ∈ fields, field.1 ∈ ["policy", "enabled"]) ∧
    (written token fields).policy.isSome = (fields.lookup "policy").isSome ∧
    (written token fields).enabled.isSome = (fields.lookup "enabled").isSome

def Fields.Tightens (fields : Fields) (base : AgentAction) : Prop :=
  (∀ p ∈ fields.policy, base.policy.order ≤ p.order) ∧ (fields.enabled = some true → base.enabled)

variable {token : String → String} {locked : Bool} {base : AgentAction} {raw : List (String × Value)}
  {fields : Fields}

lemma readFields_iff : readFields token locked base raw = .ok fields ↔
    (Readable token raw ∧ fields = written token raw) ∧
      (locked → ∀ p ∈ fields.policy, base.policy.order ≤ p.order) ∧
        (fields.enabled = some true → base.enabled) := by
  rw [readFields, bind_refuse]
  simp only [bind_eq_ok, perhaps_read, pure_eq_ok]
  constructor
  · rintro ⟨hk, policy, ⟨⟨rfl, hpl⟩, hkp⟩, enabled, ⟨⟨rfl, he⟩, hon⟩, rfl⟩
    push Not at hk
    refine ⟨⟨⟨hk, hpl, he⟩, rfl⟩, fun hl p hp => ?_, fun ht => ?_⟩
    · exact Nat.not_lt.mp fun hlt => hkp p hp ⟨hl, hlt⟩
    · by_contra ho
      exact hon true ht ⟨rfl, ho⟩
  · rintro ⟨⟨⟨hk, hpl, he⟩, rfl⟩, hkp, hon⟩
    refine ⟨by push Not; exact hk, _, ⟨⟨rfl, hpl⟩, ?_⟩, _, ⟨⟨rfl, he⟩, ?_⟩, rfl⟩
    · rintro p hp ⟨hl, hlt⟩
      exact Nat.not_le.mpr hlt (hkp hl p hp)
    · rintro _ hb ⟨rfl, ho⟩
      exact ho (hon hb)

variable {name : String}

lemma mem_of_lookup {V : Type} {v : V} {l : List (String × V)} (h : l.lookup name = some v) : (name, v) ∈ l := by
  obtain ⟨l₁, l₂, rfl, -⟩ := List.lookup_eq_some_iff.mp h
  simp

variable {catalog : Catalog} {overrides overlay : Value} {policy : AgentPolicy} {e : AgentAction}

lemma tierFields_kept {tier : Option String} (hl : parse token catalog overrides = .ok policy)
    (hb : policy.actions name = some base) (h : tierFields policy tier name = some fields) :
    (base.tenantTightenable = false → ∀ p ∈ fields.policy, base.policy.order ≤ p.order) ∧
      (fields.enabled = some true → base.enabled) := by
  simp only [parse, bind_eq_ok, pure_eq_ok] at hl
  obtain ⟨tiers, hp, rfl⟩ := hl
  simp only [parseTierOverrides, bind_eq_ok] at hp
  obtain ⟨items, -, hg⟩ := hp
  simp only [tierFields, bind_eq_bind, bind_eq_some_iff] at h
  obtain ⟨tier, -, actions, ht, hn⟩ := h
  rcases exists_of_gather hg (mem_of_lookup ht) with hnil | ⟨item, -, -, hi⟩
  · cases hnil
  simp only [bind_eq_ok] at hi
  obtain ⟨perAction, -, parsed, hpr, -, rfl⟩ := hi
  rcases exists_of_gather hpr (mem_of_lookup hn) with hnil | ⟨item, -, -, hi⟩
  · cases hnil
  simp only [parseTierAction, demand_eq_ok, bind_eq_ok] at hi
  obtain ⟨base', hb', raw, -, fields', hr, rfl, rfl⟩ := hi
  obtain rfl : base' = base := mem_unique hb' hb
  simpa using (readFields_iff.mp hr).2

lemma enabled_of_replace (h : fields.enabled = some true → base.enabled) (he : (base.replace fields).enabled) :
    base.enabled := by
  rw [AgentAction.replace] at he
  cases hf : fields.enabled with
  | none => simpa [hf] using he
  | some b =>
    obtain rfl : b = true := by simpa [hf] using he
    exact h hf

lemma le_order_replace (h : ∀ p ∈ fields.policy, base.policy.order ≤ p.order) :
    base.policy.order ≤ (base.replace fields).policy.order := by
  rw [AgentAction.replace]
  cases hf : fields.policy with
  | none => exact Nat.le_refl _
  | some p => exact h p hf

lemma applyTierOverrides_kept (hl : parse token catalog overrides = .ok policy)
    (hb : policy.actions name = some base) (tier : Option String) :
    (applyTierOverrides policy base tier).name = name ∧
      (base.tenantTightenable = false → base.policy.order ≤ (applyTierOverrides policy base tier).policy.order) ∧
      ((applyTierOverrides policy base tier).enabled → base.enabled) := by
  have hn := policy.named hb
  rw [applyTierOverrides, hn]
  cases hf : tierFields policy tier name with
  | none => exact ⟨hn, fun _ => Nat.le_refl _, id⟩
  | some fields =>
    obtain ⟨hp, he⟩ := tierFields_kept hl hb hf
    exact ⟨hn, fun h => le_order_replace (hp h), enabled_of_replace he⟩

def overlayFields (token : String → String) (overlay : Value) (name : String) : Fields :=
  match overlay.mapping.toOption.bind (·.lookup name) with
  | some (.object raw) => written token raw
  | _ => ⟨none, none⟩

variable {usingPostgres : Bool} {expectedRevision : Option ℤ}

lemma applyTenantOverlay_iff {E : Type} {store : Value → ℤ → Option E} {entry : E}
    (hset : setTenantOverlay token policy usingPostgres expectedRevision store overlay = .ok entry)
    (action : AgentAction) : applyTenantOverlay token action (some overlay) = .ok e ↔
      (overlayFields token overlay action.name).Tightens action ∧
        action.replace (overlayFields token overlay action.name) = e := by
  rw [setTenantOverlay, bind_refuse] at hset
  simp only [bind_eq_ok] at hset
  obtain ⟨-, revision, -, items, him, actions, hg, -⟩ := hset
  rw [applyTenantOverlay, him, overlayFields, him]
  cases he : items.lookup action.name with
  | none => simp [he, Except.toOption, Fields.Tightens, AgentAction.replace]
  | some value =>
    obtain ⟨merged, -, -, hi⟩ := mem_gather hg (mem_of_lookup he)
    rw [bind_demand] at hi
    obtain ⟨stored, hs, hi⟩ := hi
    have hn := policy.named hs
    simp only [applyTenantOverlay, Value.mapping, hn, List.lookup_cons_self, bind_eq_ok, Except.ok.injEq,
      exists_eq_left', readFields_iff] at hi
    cases value with
    | other | bool | int | str => simp at hi
    | object raw =>
      obtain ⟨_, ⟨rfl⟩, _, ⟨⟨hr, -⟩, -⟩, -⟩ := hi
      simp only [Except.toOption, bind_some, he, bind_eq_ok, Value.mapping, Except.ok.injEq, exists_eq_left',
        readFields_iff, pure_eq_ok, hr, true_and, forall_const, Fields.Tightens, and_assoc, exists_eq_left]

theorem stored_overlay_tightens {E : Type}
    {store : Value → ℤ → Option E} {entry : E} (hload : parse token catalog overrides = .ok policy)
    (hset : setTenantOverlay token policy usingPostgres expectedRevision store overlay = .ok entry)
    (tier : Option String) (name : String) :
    (policy.actions name = none → effectiveAction token policy name tier (some overlay) = .ok none) ∧
      ∀ base, policy.actions name = some base →
        ((∃ e, effectiveAction token policy name tier (some overlay) = .ok (some e)) ↔
          (overlayFields token overlay name).Tightens (applyTierOverrides policy base tier)) ∧
        (¬ (overlayFields token overlay name).Tightens (applyTierOverrides policy base tier) →
          ∃ failure, effectiveAction token policy name tier (some overlay) = .error failure) ∧
        ∀ e, effectiveAction token policy name tier (some overlay) = .ok (some e) →
          (applyTierOverrides policy base tier).policy.order ≤ e.policy.order ∧
          (∀ p ∈ (overlayFields token overlay name).policy, p.order ≤ e.policy.order) ∧
          (e.enabled → base.enabled ∧ (applyTierOverrides policy base tier).enabled ∧
            (overlayFields token overlay name).enabled ≠ some false) ∧
          (base.tenantTightenable = false → base.policy.order ≤ e.policy.order) := by
  rw [effectiveAction]
  refine ⟨fun hn => by rw [hn], fun base hb => ?_⟩
  obtain ⟨hnm, hl, hon⟩ := applyTierOverrides_kept hload hb tier
  have hm := fun e => applyTenantOverlay_iff (e := e) hset (applyTierOverrides policy base tier)
  rw [hnm] at hm
  simp only [hb, bind_eq_ok, pure_eq_ok, some.injEq, exists_eq_right, hm]
  refine ⟨by simp, fun hn => ?_, ?_⟩
  · cases he : applyTenantOverlay token (applyTierOverrides policy base tier) (some overlay) with
    | ok e => exact absurd ((hm e).mp he).1 hn
    | error failure => exact ⟨failure, rfl⟩
  rintro e ⟨ht, rfl⟩
  have hle := le_order_replace ht.1
  refine ⟨hle, fun p hp => ?_, fun he => ?_, fun h => Nat.le_trans (hl h) hle⟩
  · simp [AgentAction.replace, mem_def.mp hp]
  have htn := enabled_of_replace ht.2 he
  refine ⟨hon htn, htn, fun ho => ?_⟩
  simp [AgentAction.replace, ho] at he

def readCatalog : Catalog where
  actions name := if name = "run_read_tool" then some ⟨"run_read_tool", .auto, true, true⟩ else none
  named := by grind

def confirmed (policy : String) : Value := .object [("run_read_tool", .object [("policy", .str policy)])]

def proPolicy : AgentPolicy := ⟨readCatalog, [("pro", [("run_read_tool", ⟨some .alwaysConfirm, none⟩)])]⟩

theorem confirm_once_tightens_auto :
    ∃ e, effectiveAction id proPolicy "run_read_tool" none (some (confirmed "confirm-once")) = .ok (some e) ∧
      1 ≤ e.policy.order := by
  have hl : parse id readCatalog (.object [("pro", confirmed "always-confirm")]) = .ok proPolicy := rfl
  have hs : setTenantOverlay id proPolicy true (some 0) (fun _ _ => some ()) (confirmed "confirm-once") = .ok () :=
    rfl
  have ha := (stored_overlay_tightens hl hs none "run_read_tool").2 _ rfl
  obtain ⟨e, he⟩ := ha.1.mpr ⟨by rintro _ ⟨rfl⟩; decide, by rintro ⟨⟩⟩
  exact ⟨e, he, (ha.2.2 e he).2.1 .confirmOnce rfl⟩

theorem stored_overlay_blocked :
    parse id readCatalog (.object [("pro", confirmed "always-confirm")]) = .ok proPolicy ∧
      setTenantOverlay id proPolicy true (some 0) (fun _ _ => some ()) (confirmed "confirm-once") = .ok () ∧
      effectiveAction id proPolicy "run_read_tool" (some "pro") (some (confirmed "confirm-once")) =
        .error .loosening :=
  ⟨rfl, rfl, rfl⟩

end LeafWeb.Agent
