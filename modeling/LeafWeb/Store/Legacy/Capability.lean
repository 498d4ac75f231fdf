import LeafWeb.Lib.Delimited
import LeafWeb.Lib.Text
import LeafWeb.Store.Legacy.Fencing

/-! Checkout capabilities. Any calls may come between the gate of a route and its own call of the store. -/

namespace LeafWeb.Store.Legacy

open Lib Lib.Procedure Lib.Transition List Option Nat Int

inductive Denied
  | rejected (message : String)
  | unavailable (message : String)
  | encodeError
  | store (e : StoreError)

structure Deployment where
  secret : Except Denied String
  authLive : Bool
  /-- The hex digest, `none` where the key or the text has no UTF-8 encoding. -/
  hmac : String → String → Option String
  hmac_injective : ∀ key a b tag, hmac key a = some tag → hmac key b = some tag → a = b

/-- `publish` is a job's, `save` one of an edited version, of a plan or of a combiner import. -/
inductive Route
  | acquire (holder : Option String) (ttl : Option ℤ)
  | release
  | undo
  | redo
  | restore (a : PutArgs)
  | save (a : PutArgs)
  | publish (a : PutArgs)

/-- The refusals of the gate after which a route goes on as a caller that has proved nothing. -/
def Route.tolerates : Route → Denied → Bool
  | .acquire _ _, .rejected _ => true
  | .publish _, _ => true
  | _, _ => false

def Route.op (host : Host) (auth : Option (String × ℤ)) (route : Route) : Op :=
  let holder := auth.map Prod.fst
  let fence := auth.map Prod.snd
  match route with
  | .acquire name ttl => .acquire ((name.filter (· ≠ "")).getD host.tid) (some (ttl.getD 3600000000)) fence true
  | .release => .release holder fence
  | .undo => .undo holder fence
  | .redo => .redo holder fence
  | .save a => .put { a with holder := holder, fence := fence }
  | .restore a | .publish a => .put { a with holder := some (holder.getD anonymousHolder), fence := fence }

/-- The routes that name nobody to the store where their gate found no lease. -/
def Route.unnamed : Route → Bool
  | .release | .undo | .redo | .save _ => true
  | .acquire _ _ | .restore _ | .publish _ => false

def fieldSep : Char := '\x1f'

def binding (id : DrawingId) (subject : String) (fence : ℤ) : String :=
  joined fieldSep ["leaf.checkout.capability.v1", id.tid, subject, id.did, fence.repr]

def Unseparated (id : DrawingId) (subject : Option String) : Prop :=
  ∀ field ∈ [id.tid, subject.getD "", id.did], fieldSep ∉ field.toList

variable {d : Drawing}

namespace Deployment

variable (D : Deployment) (host : Host) (id : DrawingId) (subject presented : Option String)

def subjectOf : Except Denied String :=
  if subject.getD "" = "" ∧ D.authLive then
    .error (.unavailable ("an authenticated subject is required to mint or verify a checkout " ++
      "capability when LEAF_AUTH_LIVE=1"))
  else .ok (subject.getD "")

def mint (fence : ℤ) : Except Denied String := do
  let subject ← D.subjectOf subject
  let secret ← D.secret
  match D.hmac secret (binding id subject fence) with
  | none => .error .encodeError
  | some tag => .ok ("lco1." ++ tag)

def ensureMintable : Except Denied Unit :=
  match D.mint id subject 0 with
  | .ok _ => .ok ()
  | .error (.unavailable message) => .error (.unavailable message)
  | .error _ => .error (.unavailable ("this deployment cannot mint a checkout capability for this caller: " ++
      "UnicodeEncodeError"))

def verify (co : Checkout) : Except Denied (String × ℤ) :=
  match co.fence with
  | none => .error (.rejected ("this checkout was taken before capability-based ownership and cannot be " ++
      "proven; wait for its lease to expire, then re-acquire it"))
  | some fence =>
    if presented.getD "" = "" then
      .error (.rejected ("this drawing is checked out; a X-Checkout-Capability header from POST " ++
        "/api/drawings/\x7bid\x7d/checkout is required to change it"))
    else do
      let expected ← D.mint id subject fence
      if strip (presented.getD "") = expected then .ok (co.holder, fence)
      else .error (.rejected ("the presented checkout capability does not match this drawing's active " ++
        "checkout; re-acquire it to get a current one"))

def lockAuthorization (d : Drawing) (now : Time) : Except Denied (Option (String × ℤ)) :=
  match loadManifest host d with
  | .error e => .error (.store e)
  | .ok m => match m.checkout, isActive m.checkout now with
    | some co, true => some <$> D.verify host.toDrawingId subject presented co
    | _, _ => .ok none

/-- The operation a route asks of the store, once its gate has read the drawing. -/
def operation (d : Drawing) (now : Time) (route : Route) : Except Denied Op := do
  let auth ← (match D.lockAuthorization host subject presented d now with
    | .ok auth => .ok auth
    | .error e => if route.tolerates e then .ok none else .error e)
  let _ ← (match route with
    | .acquire _ _ => D.ensureMintable host.toDrawingId subject
    | _ => .ok ())
  .ok (route.op host auth)

/-- The presented token is the one minted for this generation. -/
def Presents (fence : ℤ) : Prop := ∃ token ∈ presented, D.mint id subject fence = .ok (strip token)

variable {D host id subject presented} {fence g g' : ℤ} {id' : DrawingId} {subject' : Option String}
  {now : Time}

lemma mint_ok {token : String} (h : D.mint id subject fence = .ok token) : ∃ key tag, D.secret = .ok key ∧
    D.hmac key (binding id (subject.getD "") fence) = some tag ∧ token = "lco1." ++ tag := by
  obtain ⟨s, hs, h⟩ := except_bind_ok h
  obtain ⟨key, hk, h⟩ := except_bind_ok h
  rw [subjectOf] at hs
  split_ifs at hs
  cases hs
  split at h
  · cases h
  · cases h
    exact ⟨key, _, hk, ‹_›, rfl⟩

lemma isDigit_of_mem_repr {n : ℕ} {c : Char} (h : c ∈ n.repr.toList) : c.isDigit = true := by
  rw [toList_repr] at h
  exact isDigit_of_mem_toDigits (by decide) (by decide) h

lemma natRepr_injective : Function.Injective Nat.repr := by
  intro m n h
  have hd := congrArg (fun s => ofDigitChars 10 s.toList 0) h
  simpa [toList_repr, ofDigitChars_toDigits] using hd

lemma repr_ne_minus (n : ℕ) (s : String) : n.repr ≠ "-" ++ s := by
  intro h
  have hd : '-' ∈ n.repr.toList := by simp [h]
  exact absurd (isDigit_of_mem_repr hd) (by decide)

lemma intRepr_injective : Function.Injective Int.repr := by
  intro m n h
  rw [repr_eq_if, repr_eq_if] at h
  split_ifs at h
  · have := natRepr_injective h
    omega
  · exact absurd h (repr_ne_minus _ _)
  · exact absurd h.symm (repr_ne_minus _ _)
  · have := natRepr_injective ((String.append_right_inj _).mp h)
    omega

lemma fieldSep_notMem_repr (fence : ℤ) : fieldSep ∉ fence.repr.toList := by
  have hd : ∀ n : ℕ, fieldSep ∉ n.repr.toList := fun n h => absurd (isDigit_of_mem_repr h) (by decide)
  rw [repr_eq_if]
  split_ifs
  · exact hd _
  · rw [String.toList_append]
    exact fun h => (mem_append.mp h).elim (by decide) (hd _)

lemma split_binding (g : ℤ) (hu : Unseparated id subject) : split fieldSep (binding id (subject.getD "") g) =
    ["leaf.checkout.capability.v1", id.tid, subject.getD "", id.did, g.repr] := by
  refine split_joined ?_ (by simp)
  simp only [Unseparated, forall_mem_cons] at hu ⊢
  exact ⟨by decide, hu.1, hu.2.1, hu.2.2.1, fieldSep_notMem_repr g, nofun⟩

lemma binding_injective (hu : Unseparated id subject) (hu' : Unseparated id' subject')
    (h : binding id (subject.getD "") g = binding id' (subject'.getD "") g') :
    id = id' ∧ subject.getD "" = subject'.getD "" ∧ g = g' := by
  have hs := congrArg (split fieldSep) h
  rw [split_binding g hu, split_binding g' hu'] at hs
  simp only [cons.injEq, intRepr_injective.eq_iff] at hs
  obtain ⟨-, ht, hsub, hd, hg, -⟩ := hs
  exact ⟨by cases id; cases id'; cases ht; cases hd; rfl, hsub, hg⟩

lemma Presents.unique (hu : Unseparated id subject) (hu' : Unseparated id' subject')
    (h : D.Presents id subject presented g) (h' : D.Presents id' subject' presented g') :
    id = id' ∧ subject.getD "" = subject'.getD "" ∧ g = g' := by
  obtain ⟨token, ht, hm⟩ := h
  obtain ⟨token', ht', hm'⟩ := h'
  cases mem_unique ht ht'
  obtain ⟨key, tag, hk, ht, he⟩ := mint_ok hm
  obtain ⟨key', tag', hk', ht', he'⟩ := mint_ok hm'
  cases hk.symm.trans hk'
  cases (String.append_right_inj _).mp (he.symm.trans he')
  exact binding_injective hu hu' (D.hmac_injective _ _ _ _ ht ht')

lemma verify_ok {auth : String × ℤ} {co : Checkout} (h : D.verify id subject presented co = .ok auth) :
    D.Presents id subject presented auth.2 := by
  rw [verify] at h
  split at h
  · cases h
  split_ifs at h with hp
  obtain ⟨token, hm, h⟩ := except_bind_ok h
  split_ifs at h with hs
  cases h
  cases presented with
  | none => exact absurd rfl hp
  | some p => exact ⟨p, rfl, hs ▸ hm⟩

lemma lockAuthorization_ok {auth : Option (String × ℤ)}
    (h : D.lockAuthorization host subject presented d now = .ok auth) :
    (∀ pair ∈ auth, D.Presents host.toDrawingId subject presented pair.2) ∧
    (auth = none → ∃ m, d.manifest = some m ∧ isActive m.checkout now = false) := by
  rw [lockAuthorization] at h
  split at h
  · cases h
  next m hm =>
    split at h
    next co _ _ =>
      obtain ⟨pair, hv, h⟩ := except_bind_ok h
      cases h
      refine ⟨?_, nofun⟩
      rintro _ ⟨⟩
      exact verify_ok hv
    next hne =>
      cases h
      refine ⟨nofun, fun _ => ⟨m, loadManifest_ok hm, ?_⟩⟩
      cases hc : m.checkout with
      | none => rfl
      | some co => exact Bool.eq_false_iff.mpr fun ha => hne co hc (hc ▸ ha)

lemma operation_ok {op : Op} {route : Route} (h : D.operation host subject presented d now route = .ok op) :
    ∃ auth, op = route.op host auth ∧ (∀ pair ∈ auth, D.Presents host.toDrawingId subject presented pair.2) ∧
    (auth = none → (∃ e, route.tolerates e = true) ∨
      ∃ m, d.manifest = some m ∧ isActive m.checkout now = false) := by
  obtain ⟨auth, ha, h⟩ := except_bind_ok h
  obtain ⟨_, -, h⟩ := except_bind_ok h
  refine ⟨auth, (Except.ok.inj h).symm, ?_⟩
  split at ha
  next hl =>
    cases ha
    exact (lockAuthorization_ok hl).imp_right fun h hn => .inr (h hn)
  next e _ =>
    split_ifs at ha with ht
    cases ha
    exact ⟨nofun, fun _ => .inl ⟨e, ht⟩⟩

end Deployment

variable {host : Host} {l : Lease} {d' : Drawing}

/-- Nobody publishes without a name under a live lease. -/
lemma Effect.not_anonymous {a : PutArgs} {c : Call} {h : History} {r : Except StoreError Answer}
    (he : Effect host d c r d') (hf : Fenced h d) (hl : lease h = some l)
    (hlive : c.now < l.expires) (hop : c.op = .put a) (hs : succeeds r = true) :
    a.holder ≠ some anonymousHolder := by
  intro ha
  have hno : ∀ m, d.manifest = some m → authorizeCheckoutView m.checkout a.holder a.fence c.now
      "publish a version" ≠ .ok () := by
    intro m hm h
    obtain ⟨co, hco, -, hexp⟩ := (hf.tracks m hm).live hl
    rw [← hexp] at hlive
    simp only [authorizeCheckoutView, hco, ha, isActive, decide_eq_true hlive, reduceCtorEq, false_and] at h
    obtain ⟨_, ho, -⟩ := except_bind_ok h
    cases ho
  cases he with
  | raised | denied | notCleared => cases hs
  | replayed hop' hm hr hb hauth =>
    cases hop.symm.trans hop'
    exact hno _ hm hauth
  | published fields hop' hm hr hpar hauth =>
    cases hop.symm.trans hop'
    exact hno _ hm hauth
  | _ hop' => simp [hop] at hop'

theorem live_lease_needs_its_capability (D : Deployment) (host : Host) (subject presented : Option String)
    (pre mid : List Call) (c : Call) (route : Route) (now : Time) (l : Lease)
    (hop : D.operation host subject presented (run host pre) now route = .ok c.op)
    (hs : succeeds (step host (run host (pre ++ mid)) c).1 = true)
    (hl : lease (trace (step host) .absent (pre ++ mid)) = some l) (hlive : c.now < l.expires) :
    D.Presents host.toDrawingId subject presented l.generation ∧
      (∀ id subject' g, Unseparated host.toDrawingId subject → Unseparated id subject' →
        D.Presents id subject' presented g →
        id = host.toDrawingId ∧ subject'.getD "" = subject.getD "" ∧ g = l.generation) ∨
    route.unnamed = true ∧ ∀ l', lease (trace (step host) .absent pre) = some l' → l'.expires ≤ now := by
  have hf := fenced_run host (pre ++ mid)
  have he := step_effect host (run host (pre ++ mid)) c
  obtain ⟨auth, hc, hproved, hfree⟩ := Deployment.operation_ok hop
  have hfence : ∀ f, (route.op host auth).presents = some f → f = some l.generation :=
    fun f hp => he.presents_live hf hl hlive (hc ▸ hp) hs
  cases auth with
  | some pair =>
    have hp : D.Presents host.toDrawingId subject presented l.generation := by
      have hg : some pair.2 = some l.generation := hfence _ (by cases route <;> rfl)
      rw [← some.inj hg]
      exact hproved pair rfl
    exact .inl ⟨hp, fun id subject' g hu hu' hp' => hp'.unique hu' hu hp⟩
  | none =>
    have hroute : route.unnamed = true := by
      cases route with
      | acquire holder ttl => cases hfence none rfl
      | restore a | publish a => exact absurd rfl (he.not_anonymous hf hl hlive hc hs)
      | _ => rfl
    refine .inr ⟨hroute, fun l' hl' => ?_⟩
    obtain ⟨e, ht⟩ | ⟨m, hm, ha⟩ := hfree rfl
    · cases route with
      | acquire | restore | publish => cases hroute
      | _ => cases ht
    · obtain ⟨co, hco, -, hexp⟩ := ((fenced_run host pre).tracks m hm).live hl'
      simpa [isActive, hco, hexp] using ha

def sampleDeployment : Deployment where
  secret := .ok "k"
  authLive := false
  hmac _ text := some text
  hmac_injective _ _ _ _ ha hb := some.inj (ha.trans hb.symm)

def sampleToken : String := "lco1." ++ binding sampleHost.toDrawingId "" 2

theorem live_lease_released : sampleDeployment.Presents sampleHost.toDrawingId none (some sampleToken) 2 := by
  have hop : sampleDeployment.operation sampleHost none (some sampleToken) (run sampleHost reacquiringCalls) 4
      .release = .ok (.release (some "session-b") (some 2)) := by
    rfl
  have hl : lease (trace (step sampleHost) .absent (reacquiringCalls ++ [])) = some ⟨2, 103⟩ := by decide
  have h := live_lease_needs_its_capability sampleDeployment sampleHost none (some sampleToken) reacquiringCalls []
    ⟨.release (some "session-b") (some 2), 4, 4, []⟩ .release 4 ⟨2, 103⟩ hop (by decide) hl (by decide)
  exact (h.resolve_right fun hr => absurd (hr.2 _ hl) (by decide)).1

end LeafWeb.Store.Legacy
