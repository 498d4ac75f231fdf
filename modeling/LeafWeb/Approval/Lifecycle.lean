import LeafWeb.Approval.Contract
import LeafWeb.Lib.Transition

namespace LeafWeb.Approval

open Lib Transition List Option Bool Prod Nat

abbrev Said := Option (Call × Answer)

def claims (id : String) : Said → Bool
  | some (.claim input _, .claim (some (.claimed _ _ _))) => input.approval_id = id
  | _ => false

def completes (id : String) : Said → Bool
  | some (.complete input, .done true) => input.approval_id = id
  | _ => false

def Quiet (id : String) (said : Said) : Prop := claims id said = false ∧ completes id said = false

/-- The claim answers with the id it drew, unless what it reads back is not fit to be returned. -/
def Acquired (executionClaimId : String) (answer : Answer) : Prop :=
  answer = .raised ∨ answer = .claim none ∨
    ∃ deadline binding, answer = .claim (some (.claimed executionClaimId deadline binding))

def State.rank : State → ℕ
  | .pending => 0
  | .approved => 1
  | .executing => 2
  | .uncertain => 3
  | .completed => 3

structure Clock (Time : Type) where
  stamp : String → Option Time
  before : ℚ → Time → Prop

/-- What the store takes for before the expiry of that text is before that expiry. -/
def Clock.Exact {Time : Type} (clock : Clock Time) (dates : Dates) (text : String) : Prop :=
  ∀ expiry time now, canonicalExpiryMillis dates text = some expiry →
    clock.stamp text = some time → clock.before now time → now < expiry

variable {Time : Type} {said : Said} {o o' : Option (Record Time)} {r : Record Time} {c : String}

section

inductive Move (dates : Dates) (clock : Clock Time) (id : String) :
    Said → Option (Record Time) → Option (Record Time) → Prop
  | stay {said : Said} {r : Option (Record Time)} (quiet : Quiet id said) : Move dates clock id said r r
  | create (binding : Binding) (time : Time) (same : binding.approval_id = id)
      (valid : validBinding dates binding = true) (stamped : clock.stamp binding.expires_at = some time) :
      Move dates clock id (some (.create binding, .done true)) none (some (.pending binding time))
  | approve (input : ApproveInput) (r : Record Time) (approved_at : Option Time)
      (same : input.approval_id = id) (pending : r.state = .pending)
      (identity : r.identity = input.identity) (digest : r.argument_digest = input.argument_digest) :
      Move dates clock id (some (.approve input, .done true)) (some r)
        (some { r with state := .approved, approved_at })
  | acquire (input : ClaimInput) (executionClaimId : String) (answer : Answer) (r : Record Time)
      (started deadline : Option Time) (now : ℚ) (same : input.approval_id = id)
      (approved : r.state = .approved) (identity : r.identity = input.identity)
      (clockValue : input.now_ms = some now) (unexpired : clock.before now r.expires_at)
      (acquired : Acquired executionClaimId answer) :
      Move dates clock id (some (.claim input executionClaimId, answer)) (some r)
        (some { r with
          state := .executing, execution_claim_id := some executionClaimId
          execution_started_at := started, execution_deadline_at := deadline })
  | giveUp {said : Said} (r : Record Time) (uncertain_at : Option Time) (quiet : Quiet id said)
      (executing : r.state = .executing) :
      Move dates clock id said (some r) (some { r with state := .uncertain, uncertain_at })
  | complete (input : CompleteInput) (r : Record Time) (completed_at : Option Time)
      (same : input.approval_id = id) (executing : r.state = .executing)
      (identity : r.identity = input.identity)
      (claimed : r.execution_claim_id = some input.execution_claim_id) :
      Move dates clock id (some (.complete input, .done true)) (some r)
        (some { r with state := .completed, result := some input.receipt, completed_at })
  | reconcile (input : ReconcileInput) (r : Record Time) (completed_at : Option Time)
      (same : input.approval_id = id) (uncertain : r.state = .uncertain) :
      Move dates clock id (some (.reconcile input, .done true)) (some r)
        (some { r with
          state := .completed, result := some input.receipt, completed_at, uncertain_at := none })

variable {dates : Dates} {clock : Clock Time} {id : String}

namespace Move

lemma rank_le (h : Move dates clock id said (some r) o) : ∃ r', o = some r' ∧ r.state.rank ≤ r'.state.rank := by
  cases h with
  | stay => exact ⟨r, rfl, le_rfl⟩
  | approve _ _ _ _ hp => exact ⟨_, rfl, by simp [hp, State.rank]⟩
  | acquire _ _ _ _ _ _ _ _ ha => exact ⟨_, rfl, by simp [ha, State.rank]⟩
  | giveUp _ _ _ he => exact ⟨_, rfl, by simp [he, State.rank]⟩
  | complete _ _ _ _ he => exact ⟨_, rfl, by simp [he, State.rank]⟩
  | reconcile _ _ _ _ hu => exact ⟨_, rfl, by simp [hu, State.rank]⟩

lemma keeps_completed (h : Move dates clock id said (some r) o) (hr : r.state = .completed) : o = some r := by
  cases h with
  | stay => rfl
  | approve _ _ _ _ hp => cases hr.symm.trans hp
  | acquire _ _ _ _ _ _ _ _ ha => cases hr.symm.trans ha
  | giveUp _ _ _ he => cases hr.symm.trans he
  | complete _ _ _ _ he => cases hr.symm.trans he
  | reconcile _ _ _ _ hu => cases hr.symm.trans hu

lemma reconciled {r' : Record Time} (h : Move dates clock id said (some r) (some r'))
    (hr : r.state = .uncertain) (hr' : r'.state = .completed) :
    ∃ input, said = some (.reconcile input, .done true) ∧ input.approval_id = id := by
  cases h with
  | stay => cases hr.symm.trans hr'
  | approve _ _ _ _ hp => cases hr.symm.trans hp
  | acquire _ _ _ _ _ _ _ _ ha => cases hr.symm.trans ha
  | giveUp _ _ _ he => cases hr.symm.trans he
  | complete _ _ _ _ he => cases hr.symm.trans he
  | reconcile input _ _ same => exact ⟨input, rfl, same⟩

lemma claimed {binding : Binding} {deadline : ℚ} {drawn : String} {input : ClaimInput}
    (h : Move dates clock input.approval_id
      (some (.claim input drawn, .claim (some (.claimed c deadline binding)))) o o') :
    ∃ r now, o = some r ∧ r.state = .approved ∧ r.identity = input.identity ∧
      input.now_ms = some now ∧ clock.before now r.expires_at := by
  have hc : ¬ Quiet input.approval_id
      (some (.claim input drawn, .claim (some (.claimed c deadline binding)))) := fun hq => by
    simpa [claims] using hq.1
  cases h with
  | stay hqt => exact absurd hqt hc
  | giveUp _ _ hqt => exact absurd hqt hc
  | acquire _ _ _ r _ _ now same ha hi hcl unexpired =>
    exact ⟨r, now, rfl, ha, hi, hcl, unexpired⟩

lemma completed {input : CompleteInput}
    (h : Move dates clock input.approval_id (some (.complete input, .done true)) o o') :
    ∃ r, o = some r ∧ r.state = .executing ∧ r.identity = input.identity ∧
      r.execution_claim_id = some input.execution_claim_id := by
  have hc : ¬ Quiet input.approval_id (some (.complete input, .done true)) := fun hq => by
    simpa [completes] using hq.2
  cases h with
  | stay hqt => exact absurd hqt hc
  | giveUp _ _ hqt => exact absurd hqt hc
  | complete _ r _ _ he hi hcl => exact ⟨r, rfl, he, hi, hcl⟩

end Move

end

variable {state : State}

section

variable (dates : Dates) (clock : Clock Time) (id : String)

def Created (history : List Said) (r : Record Time) : Prop :=
  ∃ binding, some (.create binding, .done true) ∈ history ∧ binding.approval_id = id ∧
    binding.identity = r.identity ∧ binding.argument_digest = r.argument_digest ∧
    validBinding dates binding = true ∧ clock.stamp binding.expires_at = some r.expires_at

def Approved (history : List Said) (r : Record Time) : Prop :=
  ∃ input, some (.approve input, .done true) ∈ history ∧ input.approval_id = id ∧
    input.identity = r.identity ∧ input.argument_digest = r.argument_digest

def Claimed (history : List Said) (identity : Identity) (executionClaimId : String) : Prop :=
  ∃ input answer, some (.claim input executionClaimId, answer) ∈ history ∧ input.approval_id = id ∧
    input.identity = identity ∧ Acquired executionClaimId answer

def Only (history : List Said) (executionClaimId : String) : Prop :=
  (∀ input drawn c deadline binding,
    some (.claim input drawn, .claim (some (.claimed c deadline binding))) ∈ history →
      input.approval_id = id → c = executionClaimId) ∧
  ∀ input, some (.complete input, .done true) ∈ history → input.approval_id = id →
    input.execution_claim_id = executionClaimId

def Silent (history : List Said) : Prop := ∀ said ∈ history, Quiet id said

structure Lived (history : List Said) (r : Record Time) : Prop where
  created : Created dates clock id history r
  approved : r.state ≠ .pending → Approved id history r
  silent : r.state = .pending ∨ r.state = .approved → Silent id history
  claimed : ¬ (r.state = .pending ∨ r.state = .approved) →
    ∃ c, r.execution_claim_id = some c ∧ Claimed id history r.identity c ∧ Only id history c
  claimed_once : history.countP (claims id) ≤ 1
  unfinished : r.state ≠ .completed → history.countP (completes id) = 0
  completed_once : history.countP (completes id) ≤ 1

def Told (history : List Said) : Option (Record Time) → Prop
  | none => Silent id history
  | some r => Lived dates clock id history r

variable {dates clock id} {history : List Said} {completed_at uncertain_at : Option Time}

section

variable (h : Silent id history)
include h

lemma Silent.claims : history.countP (claims id) = 0 :=
  countP_eq_zero.mpr fun said hs => by rw [(h said hs).1]; exact false_ne_true

lemma Silent.completes : history.countP (completes id) = 0 :=
  countP_eq_zero.mpr fun said hs => by rw [(h said hs).2]; exact false_ne_true

lemma Silent.only (c : String) : Only id history c := by
  constructor
  · intro input drawn c' deadline binding hm hid
    have hq := (h _ hm).1
    simp [Approval.claims, hid] at hq
  · intro input hm hid
    have hq := (h _ hm).2
    simp [Approval.completes, hid] at hq

lemma Silent.concat (hs : Quiet id said) : Silent id (history ++ [said]) := by
  intro x hx
  rcases mem_append.mp hx with hx | hx
  · exact h x hx
  · rwa [mem_singleton.mp hx]

end

lemma Only.concat (h : Only id history c) (hs : Only id [said] c) : Only id (history ++ [said]) c := by
  constructor
  · intro input drawn c' deadline binding hm hid
    rcases mem_append.mp hm with hm | hm
    · exact h.1 input drawn c' deadline binding hm hid
    · exact hs.1 input drawn c' deadline binding hm hid
  · intro input hm hid
    rcases mem_append.mp hm with hm | hm
    · exact h.2 input hm hid
    · exact hs.2 input hm hid

lemma Only.concat_quiet (h : Only id history c) (hs : Quiet id said) : Only id (history ++ [said]) c := by
  refine h.concat (Silent.only (fun x hx => ?_) c)
  rwa [mem_singleton.mp hx]

lemma Created.concat (h : Created dates clock id history r) (said : Said) :
    Created dates clock id (history ++ [said]) r := by
  obtain ⟨binding, hm, hr⟩ := h
  exact ⟨binding, mem_append_left _ hm, hr⟩

lemma Approved.concat (h : Approved id history r) (said : Said) : Approved id (history ++ [said]) r := by
  obtain ⟨input, hm, hr⟩ := h
  exact ⟨input, mem_append_left _ hm, hr⟩

lemma Claimed.concat {identity : Identity} (h : Claimed id history identity c)
    (said : Said) : Claimed id (history ++ [said]) identity c := by
  obtain ⟨input, answer, hm, hr⟩ := h
  exact ⟨input, answer, mem_append_left _ hm, hr⟩

lemma countP_concat_quiet {p : Said → Bool} (hs : p said = false) :
    (history ++ [said]).countP p = history.countP p := by
  simp [hs]

lemma Lived.concat_quiet (h : Lived dates clock id history r) (hs : Quiet id said) :
    Lived dates clock id (history ++ [said]) r where
  created := h.created.concat said
  approved hr := (h.approved hr).concat said
  silent hr := (h.silent hr).concat hs
  claimed hr := by
    obtain ⟨c, hc, hcl, ho⟩ := h.claimed hr
    exact ⟨c, hc, hcl.concat said, ho.concat_quiet hs⟩
  claimed_once := by rw [countP_concat_quiet hs.1]; exact h.claimed_once
  unfinished hr := by rw [countP_concat_quiet hs.2]; exact h.unfinished hr
  completed_once := by rw [countP_concat_quiet hs.2]; exact h.completed_once

lemma started (h : state = .executing ∨ state = .uncertain ∨ state = .completed) :
    ¬ (state = .pending ∨ state = .approved) := by
  rintro (rfl | rfl) <;> rcases h with h | h | h <;> cases h

lemma Lived.turn {result : Option Receipt} (h : Lived dates clock id history r)
    (hr : r.state = .executing ∨ r.state = .uncertain) (hs : state = .uncertain ∨ state = .completed) :
    Lived dates clock id history { r with state, result, completed_at, uncertain_at } where
  created := h.created
  approved _ := h.approved fun hp => started (hr.imp_right .inl) (.inl hp)
  silent hp := absurd hp (started (.inr hs))
  claimed _ := h.claimed (started (hr.imp_right .inl))
  claimed_once := h.claimed_once
  unfinished _ := h.unfinished fun hc => by rcases hr with hr | hr <;> cases hr.symm.trans hc
  completed_once := h.completed_once

lemma Move.told (h : Move dates clock id said o o')
    (hi : Told dates clock id history o) : Told dates clock id (history ++ [said]) o' := by
  have hl (x : Said) : x ∈ history ++ [x] := by simp
  cases h with
  | stay hqt =>
    cases o with
    | none => exact hi.concat hqt
    | some r => exact hi.concat_quiet hqt
  | create binding time same valid hst =>
    have hs : Silent id (history ++ [some (.create binding, .done true)]) := hi.concat ⟨rfl, rfl⟩
    exact
      { created := ⟨binding, hl _, same, rfl, rfl, valid, hst⟩
        approved := fun hr => absurd rfl hr
        silent := fun _ => hs
        claimed := fun hr => absurd (.inl rfl) hr
        claimed_once := by rw [hs.claims]; exact zero_le 1
        unfinished := fun _ => hs.completes
        completed_once := by rw [hs.completes]; exact zero_le 1 }
  | approve input r _ same hp hin digest =>
    have hs : Silent id (history ++ [some (.approve input, .done true)]) := (hi.silent (.inl hp)).concat ⟨rfl, rfl⟩
    exact
      { created := hi.created.concat _
        approved := fun _ => ⟨input, hl _, same, hin.symm, digest.symm⟩
        silent := fun _ => hs
        claimed := fun hr => absurd (.inr rfl) hr
        claimed_once := by rw [hs.claims]; exact zero_le 1
        unfinished := fun _ => hs.completes
        completed_once := by rw [hs.completes]; exact zero_le 1 }
  | acquire input c answer r _ _ now same ha hin hck unexpired hac =>
    have hs := hi.silent (.inr ha)
    have hq : completes id (some (.claim input c, answer)) = false := rfl
    exact
      { created := hi.created.concat _
        approved := fun _ => (hi.approved (by rw [ha]; decide)).concat _
        silent := by rintro (hr | hr) <;> cases hr
        claimed := fun _ => by
          refine ⟨c, rfl, ⟨input, answer, hl _, same, hin.symm, hac⟩,
            (hs.only c).concat ⟨?_, ?_⟩⟩
          · intro input' drawn c' deadline binding hm hid
            have heq := some.inj (mem_singleton.mp hm)
            rw [mk.injEq] at heq
            rcases hac with hr | hr | ⟨_, _, hr⟩
            · cases heq.2.trans hr
            · cases heq.2.trans hr
            · cases heq.2.trans hr
              rfl
          · intro input' hm hid
            cases mem_singleton.mp hm
        claimed_once := by
          rw [countP_append, hs.claims, zero_add]
          exact countP_le_length
        unfinished := fun _ => by rw [countP_concat_quiet hq, hs.completes]
        completed_once := by
          rw [countP_concat_quiet hq, hs.completes]
          exact zero_le 1 }
  | giveUp r _ hqt he =>
    exact (hi.concat_quiet hqt).turn (.inl he) (.inl rfl)
  | complete input r _ same he hin hcm =>
    obtain ⟨c, hc, hcl, ho⟩ := hi.claimed (started (.inl he))
    obtain rfl : c = input.execution_claim_id := mem_unique hc hcm
    have hn := hi.unfinished (by rw [he]; decide)
    exact
      { created := hi.created.concat _
        approved := fun _ => (hi.approved (by rw [he]; decide)).concat _
        silent := by rintro (hr | hr) <;> cases hr
        claimed := fun _ => by
          refine ⟨_, hcm, hcl.concat _, ho.concat ⟨?_, ?_⟩⟩
          · intro input' drawn c' deadline binding hm hid
            cases mem_singleton.mp hm
          intro input' hm hid
          cases mem_singleton.mp hm
          rfl
        claimed_once := by
          rw [countP_concat_quiet rfl]
          exact hi.claimed_once
        unfinished := fun hr => absurd rfl hr
        completed_once := by
          rw [countP_append, hn, zero_add]
          exact countP_le_length }
  | reconcile input r _ same hu =>
    exact (hi.concat_quiet ⟨rfl, rfl⟩).turn (.inr hu) (.inr rfl)

lemma Told.once (h : Told dates clock id history o) :
    history.countP (claims id) ≤ 1 ∧ history.countP (completes id) ≤ 1 ∧ ∃ c, Only id history c := by
  cases o with
  | none => exact ⟨h.claims.le.trans (zero_le 1), h.completes.le.trans (zero_le 1), "", h.only ""⟩
  | some r =>
    refine ⟨h.claimed_once, h.completed_once, ?_⟩
    by_cases hr : r.state = .pending ∨ r.state = .approved
    · exact ⟨"", (h.silent hr).only ""⟩
    · obtain ⟨c, -, -, ho⟩ := h.claimed hr
      exact ⟨c, ho⟩

end

section

variable {σ ε : Type} (dates : Dates) (exact : String → Prop) (step : σ → ε → Said × σ) (init : σ)
  (view : σ → String → Option (Record Time))

def answers (es : List ε) : List Said := (trace step init es).map snd

structure OncePerApproval : Prop where
  claimed_once : ∀ es id, (answers step init es).countP (claims id) ≤ 1
  claimed_lawfully : ∀ es e input drawn c deadline binding,
    (step (after step init es) e).1 = some (.claim input drawn, .claim (some (.claimed c deadline binding))) →
    ∃ created approval now expiry,
      some (.create created, .done true) ∈ answers step init es ∧
      created.approval_id = input.approval_id ∧ created.identity = input.identity ∧
      some (.approve approval, .done true) ∈ answers step init es ∧
      approval.approval_id = input.approval_id ∧ approval.identity = input.identity ∧
      approval.argument_digest = created.argument_digest ∧
      canonicalExpiryMillis dates created.expires_at = some expiry ∧
      input.now_ms = some now ∧ (exact created.expires_at → now < expiry)
  completed_once : ∀ es id, (answers step init es).countP (completes id) ≤ 1
  completed_after_claim : ∀ es e input,
    (step (after step init es) e).1 = some (.complete input, .done true) →
    Claimed input.approval_id (answers step init es) input.identity input.execution_claim_id
  completed_by_that_claim : ∀ es claim drawn c deadline binding completion,
    some (.claim claim drawn, .claim (some (.claimed c deadline binding))) ∈ answers step init es →
    some (.complete completion, .done true) ∈ answers step init es →
    claim.approval_id = completion.approval_id → completion.execution_claim_id = c
  receipt_kept : ∀ es fs id r, view (after step init es) id = some r → r.state = .completed →
    ∃ r', view (after step init (es ++ fs)) id = some r' ∧ r'.state = .completed ∧ r'.result = r.result
  never_back : ∀ es fs id r, view (after step init es) id = some r →
    ∃ r', view (after step init (es ++ fs)) id = some r' ∧ r.state.rank ≤ r'.state.rank
  completed_from_uncertain : ∀ es e id r r', view (after step init es) id = some r →
    view (step (after step init es) e).2 id = some r' → r.state = .uncertain →
    r'.state = .completed →
    ∃ input, (step (after step init es) e).1 = some (.reconcile input, .done true) ∧ input.approval_id = id

variable {dates exact step init view} {clock : Clock Time}

structure Moves (dates : Dates) (clock : Clock Time) (step : σ → ε → Said × σ) (init : σ)
    (view : σ → String → Option (Record Time)) : Prop where
  absent : ∀ id, view init id = none
  move : ∀ s e id, Move dates clock id (step s e).1 (view s id) (view (step s e).2 id)

section

variable (hm : Moves dates clock step init view)

include hm

lemma told_run (es : List ε) (id : String) :
    Told dates clock id (answers step init es) (view (after step init es) id) := by
  refine history (I := fun h s => Told dates clock id (h.map snd) (view s id)) ?_ ?_ es
  · rw [hm.absent]
    intro said hs
    cases hs
  · intro h s e hi
    rw [map_append]
    exact (hm.move s e id).told hi

end

lemma OncePerApproval.of_moves (hm : Moves dates clock step init view)
    (hec : ∀ text, exact text → clock.Exact dates text) : OncePerApproval dates exact step init view where
  claimed_once es id := (told_run hm es id).once.1
  claimed_lawfully es e input drawn c deadline binding hsd := by
    have ht := told_run hm es input.approval_id
    have h := hm.move (after step init es) e input.approval_id
    rw [hsd] at h
    obtain ⟨r, now, hr, approved, identity, clockValue, unexpired⟩ := h.claimed
    rw [hr] at ht
    obtain ⟨created, hcr, hid, hi, hd, hvl, hsm⟩ := ht.created
    obtain ⟨approval, hsd, haid, ha, had⟩ := ht.approved (by rw [approved]; decide)
    have hso : (canonicalExpiryMillis dates created.expires_at).isSome := by
      simp only [validBinding, and_eq_true] at hvl
      exact hvl.1.1.1.2
    obtain ⟨expiry, he⟩ := isSome_iff_exists.mp hso
    exact ⟨created, approval, now, expiry, hcr, hid, hi.trans identity, hsd, haid,
      ha.trans identity, had.trans hd.symm, he, clockValue,
      fun hx => hec _ hx _ _ _ he hsm unexpired⟩
  completed_once es id := (told_run hm es id).once.2.1
  completed_after_claim es e input hsd := by
    have ht := told_run hm es input.approval_id
    have h := hm.move (after step init es) e input.approval_id
    rw [hsd] at h
    obtain ⟨r, hr, executing, identity, claimed⟩ := h.completed
    rw [hr] at ht
    obtain ⟨c, hc, hcl, -⟩ := ht.claimed (started (.inl executing))
    obtain rfl := mem_unique hc claimed
    rwa [identity] at hcl
  completed_by_that_claim es claim drawn c deadline binding completion hclaim hcm hid := by
    obtain ⟨-, -, c', ho⟩ := (told_run hm es completion.approval_id).once
    rw [ho.1 _ _ _ _ _ hclaim hid, ho.2 _ hcm rfl]
  receipt_kept es fs id r hv hr := by
    refine ⟨r, ?_, hr, rfl⟩
    rw [after_append]
    refine invariant (I := fun s => view s id = some r) hv (fun s e hs => ?_) fs
    have h := hm.move s e id
    rw [hs] at h
    exact h.keeps_completed hr
  never_back es fs id r hv := by
    rw [after_append]
    refine invariant (I := fun s => ∃ r', view s id = some r' ∧ r.state.rank ≤ r'.state.rank)
      ⟨r, hv, le_rfl⟩ (fun s e hs => ?_) fs
    obtain ⟨r', hs, hle⟩ := hs
    have h := hm.move s e id
    rw [hs] at h
    obtain ⟨r'', hr'', hle'⟩ := h.rank_le
    exact ⟨r'', hr'', hle.trans hle'⟩
  completed_from_uncertain es e id r r' hr hr' hst hst' := by
    have h := hm.move (after step init es) e id
    rw [hr, hr'] at h
    exact h.reconciled hst hst'

end

end LeafWeb.Approval
