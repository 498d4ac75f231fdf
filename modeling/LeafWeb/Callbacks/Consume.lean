import LeafWeb.Lib.Gather
import LeafWeb.Lib.Statements
import LeafWeb.Lib.Transition
import Mathlib.Tactic.Linarith

/-! Signed completion callbacks: what is signed, and the nonces that are consumed with a callback. -/

namespace LeafWeb.Callbacks

open Lib Transition Table List Bool Nat

abbrev Bytes := List UInt8

variable {c : Char} {n m : ℕ} {b a x y body body' nonce nonce' timestamp timestamp' : Bytes}

def decimal (n : ℕ) : Bytes := (toDigits 10 n).map fun c => UInt8.ofNat c.toNat

def framed (field : Bytes) : Bytes := decimal field.length ++ 58 :: field

def canonicalPayload (body timestamp nonce : Bytes) : Bytes := framed timestamp ++ (framed nonce ++ framed body)

lemma digit_byte (h : c.isDigit) : (UInt8.ofNat c.toNat).toNat = c.toNat ∧ c.toNat < 58 := by
  have hc : c.toNat < 58 := by
    simp only [Char.isDigit, and_eq_true, UInt32.le_iff_toNat_le] at h
    have := h.2
    simp at this
    omega
  exact ⟨UInt8.toNat_ofNat_of_lt (hc.trans (by decide)), hc⟩

lemma isDigit_of_mem (h : c ∈ toDigits 10 n) : c.isDigit := isDigit_of_mem_toDigits (by decide) (by decide) h

lemma colon_notMem_decimal (n : ℕ) : 58 ∉ decimal n := by
  intro h
  obtain ⟨c, hc, hb⟩ := mem_map.mp h
  obtain ⟨hv, hlt⟩ := digit_byte (isDigit_of_mem hc)
  rw [hb] at hv
  have : (58 : UInt8).toNat = 58 := rfl
  omega

lemma decimal_injective (h : decimal m = decimal n) : m = n := by
  have hcd : (toDigits 10 m).map Char.toNat = (toDigits 10 n).map Char.toNat := by
    have hr : ∀ k, (decimal k).map UInt8.toNat = (toDigits 10 k).map Char.toNat := by
      intro k
      rw [decimal, map_map]
      exact map_congr_left fun c hc => (digit_byte (isDigit_of_mem hc)).1
    rw [← hr, h, hr]
  have hd := map_injective_iff.mpr (fun _ _ => Char.toNat_inj.mp) hcd
  rw [← ofDigitChars_ten_toDigits (n := m), hd, ofDigitChars_ten_toDigits]

lemma append_colon_inj {a x y : Bytes} (ha : 58 ∉ a) (hb : 58 ∉ b) (h : a ++ 58 :: x = b ++ 58 :: y) :
    a = b ∧ x = y := by
  induction a generalizing b with
  | nil =>
    cases b with
    | nil => exact ⟨rfl, tail_eq_of_cons_eq h⟩
    | cons d b => exact absurd (head_eq_of_cons_eq h ▸ mem_cons_self) hb
  | cons c a ih =>
    cases b with
    | nil => exact absurd (head_eq_of_cons_eq h ▸ mem_cons_self) ha
    | cons d b =>
      obtain ⟨rfl, ht⟩ := cons.inj h
      obtain ⟨rfl, hxy⟩ := ih (fun hm => ha (mem_cons_of_mem _ hm)) (fun hm => hb (mem_cons_of_mem _ hm)) ht
      exact ⟨rfl, hxy⟩

lemma framed_append_inj (h : framed a ++ x = framed b ++ y) : a = b ∧ x = y := by
  simp only [framed, append_assoc] at h
  obtain ⟨hl, hr⟩ := append_colon_inj (colon_notMem_decimal _) (colon_notMem_decimal _) h
  exact append_inj hr (decimal_injective hl)

lemma canonicalPayload_injective
    (h : canonicalPayload body timestamp nonce = canonicalPayload body' timestamp' nonce') :
    body = body' ∧ timestamp = timestamp' ∧ nonce = nonce' := by
  obtain ⟨ht, h⟩ := framed_append_inj h
  obtain ⟨hn, h⟩ := framed_append_inj h
  rw [← append_nil (framed body), ← append_nil (framed body')] at h
  exact ⟨(framed_append_inj h).1, ht, hn⟩

/-- A value of a JSON object: a text, or something else that Python takes for true or not. -/
inductive Field
  | text (s : String)
  | other (truthy : Bool)

def Field.truthy : Field → Bool
  | .text s => s ≠ ""
  | .other truthy => truthy

def callbackJobId (get : String → Option Field) : Option String :=
  match ["job_id", "workitem_id", "id"].findSome? fun key => (get key).filter Field.truthy with
  | some (.text s) => some s
  | _ => none

/-- Text, numbers, JSON and the keyed hash of the runtime. -/
structure Runtime (Text Payload : Type) where
  encode : Text → Option Bytes
  blank : Text → Bool
  float : Text → Option ℚ
  loads : Bytes → Option Payload
  get : Payload → String → Option Field
  hmac : Bytes → Bytes
  encode_injective : ∀ s t b, encode s = some b → encode t = some b → s = t
  hmac_injective : Function.Injective hmac

section

variable {Text Payload : Type} [DecidableEq Text] (R : Runtime Text Payload)

structure Consumed (Text : Type) where
  jobId : String
  nonce : Text
  expiresAt : ℚ

def Consumed.key (c : Consumed Text) : String × Text := (c.jobId, c.nonce)

abbrev Nonces (Text : Type) := Table (Consumed.key : Consumed Text → String × Text)

/-- `LEAF_CALLBACK_REPLAY_STORE` -/
inductive Authority
  | legacy
  | postgres

def unexpired (nonces : Nonces Text) (now : ℚ) : Nonces Text := nonces.deleteWhere fun c => c.expiresAt < now

/-- A refused insertion rolls the deletion back in SQLite and leaves it in PostgreSQL. -/
def consume (authority : Authority) (nonces : Nonces Text) (jobId : String) (nonce : Text)
    (expiresAt now : ℚ) : Bool × Nonces Text :=
  match (unexpired nonces now).insert ⟨jobId, nonce, expiresAt⟩ with
  | some taken => (true, taken)
  | none =>
    (false, match authority with
      | .legacy => nonces
      | .postgres => unexpired nonces now)

structure Triple (Text : Type) where
  body : Bytes
  (timestamp nonce : Text)
  deriving DecidableEq

def signPayload (t : Triple Text) : Option Bytes := do
  return R.hmac (canonicalPayload t.body (← R.encode t.timestamp) (← R.encode t.nonce))

structure Request (Text : Type) where
  body : Bytes
  (signature timestamp nonce : Option Text)

def Request.presented (r : Request Text) : Option (Triple Text × Text) := do
  return (⟨r.body, ← r.timestamp, ← r.nonce⟩, ← r.signature)

def verifySignature (t : Triple Text) (signature : Text) : Bool :=
  match R.encode signature with
  | none => false
  | some presented => presented ≠ [] && signPayload R t = some presented

inductive Reason
  | notConfigured
  | badSignature
  | badNonce
  | staleCallback
  | badBody
  | replay
  deriving DecidableEq

structure Accepted (Text Payload : Type) where
  triple : Triple Text
  sentAt : ℚ
  jobId : String
  callback : Payload
  deriving DecidableEq

structure Config where
  configured : Bool
  maxAge : ℚ
  authority : Authority

def examine (config : Config) (r : Request Text) (now : ℚ) : Except Reason (Accepted Text Payload) := do
  refuse (config.configured = false) .notConfigured
  let (t, signature) ← demand r.presented .badSignature
  refuse (verifySignature R t signature = false) .badSignature
  refuse (R.blank t.nonce) .badNonce
  let sentAt ← demand (R.float t.timestamp) .staleCallback
  refuse (config.maxAge < |now - sentAt|) .staleCallback
  let payload ← demand (R.loads t.body) .badBody
  let jobId ← demand (callbackJobId (R.get payload)) .badBody
  return ⟨t, sentAt, jobId, payload⟩

def consumeCallback (config : Config) (nonces : Nonces Text) (r : Request Text) (now : ℚ) :
    Except Reason (Accepted Text Payload) × Nonces Text :=
  match examine R config r now with
  | .error reason => (.error reason, nonces)
  | .ok a =>
    let result := consume config.authority nonces a.jobId a.triple.nonce (a.sentAt + config.maxAge) now
    (if result.1 then .ok a else .error .replay, result.2)

inductive Event (Text : Type)
  | sign (t : Triple Text)
  | consume (r : Request Text) (now : ℚ)

def Event.time : Event Text → Option ℚ
  | .sign _ => none
  | .consume _ now => some now

def step (config : Config) (nonces : Nonces Text) : Event Text → Unit × Nonces Text
  | .sign _ => ((), nonces)
  | .consume r now => ((), (consumeCallback R config nonces r now).2)

def Accepts (config : Config) (before : List (Event Text)) (r : Request Text) (now : ℚ)
    (a : Accepted Text Payload) : Prop :=
  (consumeCallback R config (after (step R config) empty before) r now).1 = .ok a

/-- A hash under the key is presented only if it was given out before. -/
def Unforged (before : List (Event Text)) (r : Request Text) : Prop :=
  ∀ signature p, r.signature = some signature → R.encode signature = some (R.hmac p) →
    ∃ t, .sign t ∈ before ∧ signPayload R t = some (R.hmac p)

end

variable {now' : ℚ}

section

variable {Text Payload : Type} {R : Runtime Text Payload} {config : Config} {r r' : Request Text} {now : ℚ}
  {a a' : Accepted Text Payload} {t t' : Triple Text}

lemma signPayload_injective (h : signPayload R t = some b) (h' : signPayload R t' = some b) : t = t' := by
  simp only [signPayload, Option.bind_eq_bind, Option.bind_eq_some_iff, Option.pure_def, Option.some.injEq] at h h'
  obtain ⟨timestamp, ht, nonce, hn, rfl⟩ := h
  obtain ⟨timestamp', ht', nonce', hn', heq⟩ := h'
  obtain ⟨hb, rfl, rfl⟩ := canonicalPayload_injective (R.hmac_injective heq)
  cases t
  cases t'
  simp only [Triple.mk.injEq]
  exact ⟨hb.symm, R.encode_injective _ _ _ ht ht', R.encode_injective _ _ _ hn hn'⟩

structure Examined (R : Runtime Text Payload) (config : Config) (r : Request Text) (now : ℚ)
    (a : Accepted Text Payload) : Prop where
  carried : r.body = a.triple.body ∧ r.timestamp = some a.triple.timestamp ∧ r.nonce = some a.triple.nonce
  signed : ∃ signature b, r.signature = some signature ∧ R.encode signature = some b ∧
    signPayload R a.triple = some b
  sent : R.float a.triple.timestamp = some a.sentAt
  window : |now - a.sentAt| ≤ config.maxAge
  job : ((R.loads a.triple.body).bind fun payload => callbackJobId (R.get payload)) = some a.jobId

lemma examine_ok (h : examine R config r now = .ok a) : Examined R config r now a := by
  simp only [examine, bind_eq_ok, refuse_eq_ok, demand_eq_ok, exists_const, pure_eq_ok] at h
  obtain ⟨-, ⟨t, signature⟩, hp, hv, -, sentAt, hsn, hw, payload, hpy, jobId, hj, rfl⟩ := h
  simp only [Request.presented, Option.bind_eq_bind, Option.bind_eq_some_iff, Option.pure_def,
    Option.some.injEq, Prod.mk.injEq] at hp
  obtain ⟨timestamp, ht, nonce, hn, signature', hs, rfl, rfl⟩ := hp
  refine ⟨⟨rfl, ht, hn⟩, ?_, hsn, not_lt.mp hw, by simp [hpy, hj]⟩
  rw [not_eq_false, verifySignature] at hv
  split at hv
  · cases hv
  rename_i b hb
  simp only [and_eq_true, decide_eq_true_eq] at hv
  exact ⟨signature', b, hs, hb, hv.2⟩

lemma Examined.same_job (h : Examined R config r now a) (h' : Examined R config r' now' a')
    (heq : a.triple = a'.triple) : a.jobId = a'.jobId ∧ a.sentAt = a'.sentAt := by
  have hj := h.job
  have hs := h.sent
  rw [heq] at hj hs
  exact ⟨Option.mem_unique hj h'.job, Option.mem_unique hs h'.sent⟩

variable [DecidableEq Text] {nonces : Nonces Text} {c : Consumed Text} {authority : Authority} {jobId : String}
  {nonce : Text} {expiresAt : ℚ} {before middle : List (Event Text)}

lemma consume_kept (h : nonces.find c.key = some c) (hn : now ≤ c.expiresAt) :
    (consume authority nonces jobId nonce expiresAt now).2.find c.key = some c ∧
      ((jobId, nonce) = c.key → (consume authority nonces jobId nonce expiresAt now).1 = false) := by
  have hl : (unexpired nonces now).find c.key = some c := find_deleteWhere.mpr ⟨h, by simpa using hn⟩
  cases hi : (unexpired nonces now).insert ⟨jobId, nonce, expiresAt⟩ with
  | some taken =>
    simp only [consume, hi]
    refine ⟨find_insert_of_find hi hl, fun heq => ?_⟩
    have hf := (insert_rows hi).2
    rw [Consumed.key, heq, hl] at hf
    cases hf
  | none =>
    simp only [consume, hi]
    cases authority
    · exact ⟨h, fun _ => trivial⟩
    · exact ⟨hl, fun _ => trivial⟩

lemma consume_taken (h : (consume authority nonces jobId nonce expiresAt now).1 = true) :
    (consume authority nonces jobId nonce expiresAt now).2.find (jobId, nonce) =
      some ⟨jobId, nonce, expiresAt⟩ := by
  cases hi : (unexpired nonces now).insert ⟨jobId, nonce, expiresAt⟩ with
  | some taken =>
    simp only [consume, hi, find_insert hi]
    exact if_pos rfl
  | none => simp [consume, hi] at h

def Accepted.consumed (config : Config) (a : Accepted Text Payload) : Consumed Text :=
  ⟨a.jobId, a.triple.nonce, a.sentAt + config.maxAge⟩

lemma consumeCallback_ok (h : (consumeCallback R config nonces r now).1 = .ok a) :
    Examined R config r now a ∧
      (consumeCallback R config nonces r now).2.find (a.consumed config).key = some (a.consumed config) ∧
      (consume config.authority nonces a.jobId a.triple.nonce (a.sentAt + config.maxAge) now).1 = true := by
  cases he : examine R config r now with
  | error reason => simp [consumeCallback, he] at h
  | ok a' =>
    simp only [consumeCallback, he] at h ⊢
    split_ifs at h with ht
    obtain rfl := Except.ok.inj h
    exact ⟨examine_ok he, consume_taken ht, ht⟩

lemma step_kept {e : Event Text} (h : nonces.find c.key = some c)
    (he : ∀ now ∈ e.time, now ≤ c.expiresAt) : (step R config nonces e).2.find c.key = some c := by
  cases e with
  | sign t => exact h
  | consume r now =>
    cases hem : examine R config r now with
    | error reason => simpa [step, consumeCallback, hem] using h
    | ok a =>
      simp only [step, consumeCallback, hem]
      exact (consume_kept h (he now rfl)).1

lemma run_kept {es : List (Event Text)} (R : Runtime Text Payload) (config : Config)
    (h : nonces.find c.key = some c) (hes : ∀ now ∈ es.filterMap Event.time, now ≤ c.expiresAt) :
    (after (step R config) nonces es).find c.key = some c := by
  induction es generalizing nonces with
  | nil => exact h
  | cons e es ih =>
    simp only [mem_filterMap, exists_mem_cons_iff, or_imp, forall_and] at hes
    refine ih (step_kept h fun now hn => hes.1 now hn) fun now hn => hes.2 now ?_
    exact mem_filterMap.mp hn

lemma accepted_again (h : Accepts R config before r now a)
    (h' : Accepts R config (before ++ .consume r now :: middle) r' now' a')
    (hc : ∀ t ∈ middle.filterMap Event.time, t ≤ now') (hj : a.jobId = a'.jobId)
    (hn : a.triple.nonce = a'.triple.nonce) : a.sentAt + config.maxAge < now' := by
  by_contra hl
  have hnow := not_lt.mp hl
  have hf := (consumeCallback_ok h).2.1
  rw [Accepts, after_append, after_cons] at h'
  have htk := (consumeCallback_ok h').2.2
  rw [← hj, ← hn] at htk
  have hk := run_kept R config hf fun t ht => (hc t ht).trans hnow
  exact false_ne_true (((consume_kept hk hnow).2 rfl).symm.trans htk)

theorem callbacks_accepted_once (R : Runtime Text Payload) (config : Config) (es : List (Event Text))
    (hclock : (es.filterMap Event.time).Pairwise (· ≤ ·))
    (hunforged : ∀ before r now after, es = before ++ .consume r now :: after → Unforged R before r) :
    (∀ before r now after a, es = before ++ .consume r now :: after → Accepts R config before r now a →
      .sign a.triple ∈ before ∧ r.body = a.triple.body ∧ r.timestamp = some a.triple.timestamp ∧
        r.nonce = some a.triple.nonce) ∧
    ∀ before r now middle r' now' after a a',
      es = before ++ .consume r now :: middle ++ .consume r' now' :: after →
      Accepts R config before r now a → Accepts R config (before ++ .consume r now :: middle) r' now' a' →
      a.triple ≠ a'.triple ∧
        (a.jobId = a'.jobId → a.triple.nonce = a'.triple.nonce → config.maxAge < |now' - a.sentAt|) := by
  refine ⟨?_, ?_⟩
  · intro before r now after a hes h
    have he := (consumeCallback_ok h).1
    obtain ⟨signature, b, hsg, hb, hs⟩ := he.signed
    obtain ⟨p, rfl⟩ : ∃ p, R.hmac p = b := by
      simp only [signPayload, Option.bind_eq_bind, Option.bind_eq_some_iff, Option.pure_def,
        Option.some.injEq] at hs
      obtain ⟨_, -, _, -, hp⟩ := hs
      exact ⟨_, hp⟩
    obtain ⟨t, ht, hts⟩ := hunforged before r now after hes signature p hsg hb
    obtain rfl := signPayload_injective hts hs
    exact ⟨ht, he.carried⟩
  · intro before r now middle r' now' after a a' hes h h'
    have htm : ∀ t ∈ middle.filterMap Event.time, t ≤ now' := by
      rw [hes, filterMap_append, pairwise_append] at hclock
      intro t ht
      refine hclock.2.2 t ?_ now' (mem_filterMap.mpr ⟨_, mem_cons_self, rfl⟩)
      rw [filterMap_append, filterMap_cons]
      exact mem_append_right _ (mem_cons_of_mem _ ht)
    have ha := accepted_again h h' htm
    refine ⟨fun heq => ?_, fun hj hn => ?_⟩
    · obtain ⟨hj, hsn⟩ := (consumeCallback_ok h).1.same_job (consumeCallback_ok h').1 heq
      have hl := ha hj (congrArg Triple.nonce heq)
      have hw := (abs_le.mp (consumeCallback_ok h').1.window).2
      linarith
    · have hl := ha hj hn
      exact lt_of_lt_of_le (by linarith) (le_abs_self _)

def plainRuntime : Runtime Bytes Bytes where
  encode := some
  blank t := t = []
  float t := some ((t.foldl (fun n b => 10 * n + (b.toNat - 48)) 0 : ℕ) : ℚ)
  loads := some
  get body key := if key = "id" then some (.text (String.ofList (body.map fun b => Char.ofNat b.toNat))) else none
  hmac p := p
  encode_injective _ _ _ hs ht := Option.some.inj (hs.trans ht.symm)
  hmac_injective := Function.injective_id

def plainConfig : Config := ⟨true, 300, .postgres⟩

def plainTriple : Triple Bytes := ⟨[106], [50], [3]⟩

def plainRequest : Request Bytes := ⟨[106], some (canonicalPayload [106] [50] [3]), some [50], some [3]⟩

def deliveredTwice : List (Event Bytes) := [.sign plainTriple, .consume plainRequest 1, .consume plainRequest 2]

theorem delivered_twice_accepted_once :
    Accepts plainRuntime plainConfig [.sign plainTriple] plainRequest 1 ⟨plainTriple, 2, "j", [106]⟩ ∧
    ∀ before r now middle r' now' after a a',
      deliveredTwice = before ++ .consume r now :: middle ++ .consume r' now' :: after →
      Accepts plainRuntime plainConfig before r now a →
      Accepts plainRuntime plainConfig (before ++ .consume r now :: middle) r' now' a' →
      a.triple ≠ a'.triple ∧ (a.jobId = a'.jobId → a.triple.nonce = a'.triple.nonce →
        plainConfig.maxAge < |now' - a.sentAt|) := by
  have hu : ∀ before r now after,
      deliveredTwice = before ++ .consume r now :: after → Unforged plainRuntime before r := by
    intro before r now after hes signature p hs hp
    cases before with
    | nil => cases hes
    | cons e before =>
      obtain ⟨rfl, hr⟩ := cons.inj hes
      have hm : Event.consume r now ∈ [.consume plainRequest 1, .consume plainRequest 2] :=
        hr ▸ mem_append_right _ mem_cons_self
      obtain rfl : r = plainRequest := by
        rcases mem_pair.mp hm with heq | heq <;> exact (Event.consume.inj heq).1
      obtain rfl := Option.some.inj hs
      exact ⟨plainTriple, mem_cons_self, hp⟩
  refine ⟨?_, ?_⟩
  · rw [Accepts]
    decide +kernel
  exact (callbacks_accepted_once plainRuntime plainConfig deliveredTwice (by decide +kernel) hu).2

end

end LeafWeb.Callbacks
