import LeafWeb.Approval.Lifecycle
import LeafWeb.Approval.Postgres
import LeafWeb.Approval.File

namespace LeafWeb.Approval

open Lib ReadCommitted Function

variable {answer : Answer} {call : Call} {id : String}

lemma claims_eq_true (h : claims id (some (call, answer)) = true) :
    call.approval_id = id ∧ ∃ c deadline binding, answer = .claim (some (.claimed c deadline binding)) := by
  unfold claims at h
  split at h
  next heq =>
    cases heq
    exact ⟨of_decide_eq_true h, _, _, _, rfl⟩
  · cases h

lemma completes_eq_true (h : completes id (some (call, answer)) = true) :
    call.approval_id = id ∧ (∃ input, call = .complete input) ∧ answer = .done true := by
  unfold completes at h
  split at h
  next heq =>
    cases heq
    exact ⟨of_decide_eq_true h, ⟨_, rfl⟩, rfl⟩
  · cases h

lemma quiet_of_ne (h : call.approval_id ≠ id) (answer : Answer) : Quiet id (some (call, answer)) := by
  constructor
  · exact Bool.eq_false_iff.mpr fun hc => h (claims_eq_true hc).1
  · exact Bool.eq_false_iff.mpr fun hc => h (completes_eq_true hc).1

lemma quiet_raised (call : Call) : Quiet id (some (call, .raised)) := by
  cases call <;> exact ⟨rfl, rfl⟩

variable {drawn : String}

lemma quiet_claim {input : ClaimInput}
    (h : ∀ c deadline binding, answer ≠ .claim (some (.claimed c deadline binding))) :
    Quiet id (some (.claim input drawn, answer)) := by
  refine ⟨Bool.eq_false_iff.mpr fun hc => ?_, rfl⟩
  obtain ⟨-, c, deadline, binding, heq⟩ := claims_eq_true hc
  exact h c deadline binding heq

abbrev Moving {Time : Type} (dates : Dates) (clock : Clock Time) (call : Call)
    (before : Option (Record Time)) (done : Answer × Option (Record Time)) : Prop :=
  Move dates clock call.approval_id (some (call, done.1)) before done.2

namespace Postgres

variable (dates : Dates) (stamps : Timestamps)

def clock : Clock ℤ where
  stamp := stamps.ofText
  before now time := ∃ t, stamps.toTimestamp now = some t ∧ t < time

lemma claimFromRow_state (row : Row) (state : State) (c : String) (deadline : ℚ)
    (binding : Binding) : claimFromRow dates stamps row (.as state) ≠
      .claim (some (.claimed c deadline binding)) := by
  unfold claimFromRow
  grind

variable {row : Row}

lemma claimFromRow_claimed (h : row.execution_claim_id = some drawn) :
    Acquired drawn (claimFromRow dates stamps row .claimed) := by
  unfold claimFromRow
  cases fromRow stamps row with
  | none => exact .inl rfl
  | some binding =>
    rw [h]
    cases hd : row.execution_deadline_at.bind stamps.parse with
    | none =>
      simp only [ite_self]
      exact .inr (.inl rfl)
    | some deadline =>
      by_cases hv : (!validBinding dates binding) = true
      · simp only [hv]
        exact .inr (.inl rfl)
      by_cases hc : (EXECUTION_CLAIM_ID drawn && isSafeInteger deadline) = true
      · simp only [hv, hc]
        exact .inr (.inr ⟨_, _, rfl⟩)
      · simp only [hv, hc]
        exact .inr (.inl rfl)

lemma state_of_overdue {now : ℤ} (h : overdue now row = true) : row.state = .executing := by
  simp only [overdue, Bool.and_eq_true, decide_eq_true_eq] at h
  exact h.1

variable (snap current : Option Row)

lemma create_move (binding : Binding) :
    Moving dates (clock stamps) (.create binding) current (create dates stamps binding current) := by
  unfold create
  split
  · exact .stay ⟨rfl, rfl⟩
  rename_i hv
  split
  · exact .stay ⟨rfl, rfl⟩
  rename_i expires_at hs
  cases current with
  | none => exact .create binding expires_at rfl (by simpa using hv) hs
  | some row => exact .stay ⟨rfl, rfl⟩

lemma review_move (input : ReviewInput) :
    Moving dates (clock stamps) (.review input) current (review dates stamps input snap current) := by
  unfold review
  split
  · exact .stay ⟨rfl, rfl⟩
  split
  · exact .stay ⟨rfl, rfl⟩
  simp only
  split
  next hr =>
    obtain ⟨row, rfl, hc, rfl⟩ := updated_eq_some hr
    exact .giveUp row _ ⟨rfl, rfl⟩ (state_of_overdue (Bool.and_eq_true_iff.mp hc).2)
  · split <;> exact .stay ⟨rfl, rfl⟩

lemma approve_move (input : ApproveInput) :
    Moving dates (clock stamps) (.approve input) current (approve stamps input snap current) := by
  unfold approve
  split
  · exact .stay ⟨rfl, rfl⟩
  split
  · exact .stay ⟨rfl, rfl⟩
  simp only
  split
  next hr =>
    obtain ⟨row, rfl, hc, rfl⟩ := updated_eq_some hr
    simp only [Bool.and_eq_true, decide_eq_true_eq, sameIdentity_iff] at hc
    exact .approve input row _ rfl hc.1.2 hc.1.1.1 hc.1.1.2
  · exact .stay ⟨rfl, rfl⟩

lemma claim_move (input : ClaimInput) (drawn : String) :
    Moving dates (clock stamps) (.claim input drawn) current (claim dates stamps input drawn snap current) := by
  unfold claim
  split
  next now_ms _ hn _ =>
    split
    · exact .stay ⟨rfl, rfl⟩
    split
    next now _ ht _ =>
      simp only
      split
      next hr =>
        obtain ⟨row, rfl, hc, rfl⟩ := updated_eq_some hr
        exact .giveUp row _
          (quiet_claim (claimFromRow_state dates stamps (setUncertain now row) .uncertain))
          (state_of_overdue (Bool.and_eq_true_iff.mp hc).2)
      next hr =>
        obtain ⟨row, rfl, hc, rfl⟩ := updated_eq_some hr
        simp only [Bool.and_eq_true, decide_eq_true_eq, sameIdentity_iff] at hc
        exact .acquire input drawn _ row _ _ now_ms rfl hc.1.2 hc.1.1 hn
          ⟨now, ht, hc.2⟩ (claimFromRow_claimed dates stamps rfl)
      · split
        · exact .stay (quiet_claim (claimFromRow_state dates stamps _ _))
        · exact .stay ⟨rfl, rfl⟩
    · exact .stay ⟨rfl, rfl⟩
  · exact .stay ⟨rfl, rfl⟩

lemma complete_move (input : CompleteInput) (now : ℤ) :
    Moving dates (clock stamps) (.complete input) current (complete input now snap current) := by
  unfold complete
  split
  · exact .stay ⟨rfl, rfl⟩
  split
  next hr =>
    obtain ⟨row, rfl, hc, rfl⟩ := updated_eq_some hr
    simp only [Bool.and_eq_true, decide_eq_true_eq, sameIdentity_iff] at hc
    exact .complete input row _ rfl hc.1.1.2 hc.1.1.1 hc.1.2
  · exact .stay ⟨rfl, rfl⟩

lemma reconcile_move (input : ReconcileInput) (now : ℤ) :
    Moving dates (clock stamps) (.reconcile input) current (reconcile input now snap current) := by
  unfold reconcile
  split
  · exact .stay ⟨rfl, rfl⟩
  split
  next hr =>
    obtain ⟨row, rfl, hc, rfl⟩ := updated_eq_some hr
    simp only [Bool.and_eq_true, decide_eq_true_eq] at hc
    exact .reconcile input row _ rfl hc.2
  · exact .stay ⟨rfl, rfl⟩

lemma markUncertain_move (input : MarkUncertainInput) :
    Moving dates (clock stamps) (.markUncertain input) current (markUncertain stamps input snap current) := by
  unfold markUncertain
  split
  · exact .stay ⟨rfl, rfl⟩
  split
  · exact .stay ⟨rfl, rfl⟩
  split
  next hr =>
    obtain ⟨row, rfl, hc, rfl⟩ := updated_eq_some hr
    simp only [Bool.and_eq_true, decide_eq_true_eq] at hc
    exact .giveUp row _ ⟨rfl, rfl⟩ hc.1.2
  · exact .stay ⟨rfl, rfl⟩

lemma execute_move (call : Call) (now : ℤ) :
    Moving dates (clock stamps) call current (execute dates stamps call now snap current) := by
  cases call with
  | create binding => exact create_move dates stamps current binding
  | review input => exact review_move dates stamps snap current input
  | approve input => exact approve_move dates stamps snap current input
  | claim input drawn => exact claim_move dates stamps snap current input drawn
  | complete input => exact complete_move dates stamps snap current input now
  | reconcile input => exact reconcile_move dates stamps snap current input now
  | markUncertain input => exact markUncertain_move dates stamps snap current input

lemma step_move (db : Db) (e : Event Call ℤ) (id : String) :
    Move dates (clock stamps) id (step dates stamps db e).1 (db.rows id) ((step dates stamps db e).2.rows id) := by
  obtain ⟨hs, hr⟩ | ⟨call, answer, hs, hne, hr⟩ | ⟨call, now, snap, rfl, hs, hr⟩ :=
    step_cases Call.approval_id (execute dates stamps) db e id
  · rw [step, hs, hr]
    exact .stay ⟨rfl, rfl⟩
  · rw [step, hs, hr]
    exact .stay (quiet_of_ne hne answer)
  · rw [step, hs, hr]
    exact execute_move dates stamps snap _ call now

end Postgres

namespace File

variable (dates : Dates)

def clock : Clock String where
  stamp := some
  before now text := notAfter dates text now = false

lemma clock_exact (text : String) : (clock dates).Exact dates text := by
  intro expiry time now he hs hb
  obtain rfl := Option.some.inj hs
  have hp : dates.parse text = some expiry := by
    unfold canonicalExpiryMillis at he
    grind
  have hl : ¬ (expiry : ℚ) ≤ now := by simpa [clock, notAfter, hp] using hb
  exact Rat.not_le.mp hl

def view (files : Files dates) (id : String) : Option (Record String) := (files id).bind Content.view

abbrev Moving (call : Call) (file : Stored dates call.approval_id)
    (done : Answer × Stored dates call.approval_id) : Prop :=
  Approval.Moving dates (clock dates) call (file.bind Content.view) (done.1, done.2.bind Content.view)

variable {file : Stored dates call.approval_id} {record : Record String}

lemma writeAt_move {instant : ℚ} {record' : String → Record String} (hf : file = some (.written record))
    (h : ∀ text, Approval.Moving dates (clock dates) call (some record) (answer, some (record' text))) :
    Moving dates call file (writeAt dates instant record' answer file) := by
  unfold writeAt
  split
  · exact .stay (quiet_raised call)
  subst hf
  unfold write
  split
  · exact h _
  · exact .stay (quiet_raised call)

lemma onRecord_move {action : Record String → Answer × Stored dates call.approval_id}
    (hq : Quiet call.approval_id (some (call, answer)))
    (h : ∀ record, file = some (.written record) → Moving dates call file (action record)) :
    Moving dates call file (onRecord dates answer file action) := by
  unfold onRecord
  split
  · exact .stay hq
  · exact .stay (quiet_raised call)
  rename_i record
  split
  · exact h record rfl
  · exact .stay hq

lemma state_of_overdue {now : ℚ} (h : overdue dates now record = true) : record.state = .executing := by
  simp only [overdue, Bool.and_eq_true, decide_eq_true_eq] at h
  exact h.1

lemma review_move (input : ReviewInput) (file : Stored dates input.approval_id) :
    Moving dates (.review input) file (review dates input file) := by
  unfold review
  split
  · refine onRecord_move dates ⟨rfl, rfl⟩ fun record hf => ?_
    subst hf
    split
    · exact .stay ⟨rfl, rfl⟩
    split
    next ho =>
      exact writeAt_move dates rfl fun text =>
        .giveUp record _ ⟨rfl, rfl⟩ (state_of_overdue dates ho)
    · split
      · exact .stay ⟨rfl, rfl⟩
      · split <;> exact .stay ⟨rfl, rfl⟩
  · exact .stay ⟨rfl, rfl⟩

lemma approve_move (input : ApproveInput) (file : Stored dates input.approval_id) :
    Moving dates (.approve input) file (approve dates input file) := by
  unfold approve
  split
  · refine onRecord_move dates ⟨rfl, rfl⟩ fun record hf => ?_
    subst hf
    split
    · exact .stay ⟨rfl, rfl⟩
    rename_i hs
    simp only [Bool.or_eq_true, Bool.not_eq_true', decide_eq_true_eq, not_or,
      Bool.not_eq_false, sameIdentity_iff, not_not] at hs
    split
    next hp =>
      split
      · exact .stay ⟨rfl, rfl⟩
      · exact writeAt_move dates rfl fun text =>
          .approve input record _ rfl hp hs.1 hs.2
    · exact .stay ⟨rfl, rfl⟩
  · exact .stay ⟨rfl, rfl⟩

lemma claim_move (input : ClaimInput) (drawn : String) (file : Stored dates input.approval_id) :
    Moving dates (.claim input drawn) file (claim dates input drawn file) := by
  unfold claim
  split
  next now _ hn _ =>
    split
    · exact .stay ⟨rfl, rfl⟩
    refine onRecord_move dates ⟨rfl, rfl⟩ fun record hf => ?_
    subst hf
    split
    · exact .stay ⟨rfl, rfl⟩
    rename_i hs
    simp only [Bool.not_eq_true', Bool.not_eq_false, sameIdentity_iff] at hs
    split
    next ho =>
      exact writeAt_move dates rfl fun text =>
        .giveUp record _ ⟨rfl, rfl⟩ (state_of_overdue dates ho)
    split
    next ha =>
      split
      · exact .stay ⟨rfl, rfl⟩
      rename_i he
      split
      · exact .stay ⟨rfl, rfl⟩
      · exact writeAt_move dates rfl fun text =>
          .acquire input drawn _ record _ _ now rfl ha hs hn (Bool.eq_false_iff.mpr he) (.inr (.inr ⟨_, _, rfl⟩))
    · split <;> exact .stay ⟨rfl, rfl⟩
    · exact .stay ⟨rfl, rfl⟩
  · exact .stay ⟨rfl, rfl⟩

lemma complete_move (input : CompleteInput) (now : Millis) (file : Stored dates input.approval_id) :
    Moving dates (.complete input) file (complete dates input now file) := by
  unfold complete
  split
  · exact .stay ⟨rfl, rfl⟩
  refine onRecord_move dates ⟨rfl, rfl⟩ fun record hf => ?_
  subst hf
  split
  · exact .stay ⟨rfl, rfl⟩
  split
  · exact .stay ⟨rfl, rfl⟩
  rename_i hs
  simp only [Bool.or_eq_true, Bool.not_eq_true', decide_eq_true_eq, not_or,
    Bool.not_eq_false, sameIdentity_iff, not_not] at hs
  exact writeAt_move dates rfl fun text =>
    .complete input record _ rfl hs.1.1.1 hs.1.1.2 hs.1.2

lemma reconcile_move (input : ReconcileInput) (now : Millis) (file : Stored dates input.approval_id) :
    Moving dates (.reconcile input) file (reconcile dates input now file) := by
  unfold reconcile
  split
  · exact .stay ⟨rfl, rfl⟩
  refine onRecord_move dates ⟨rfl, rfl⟩ fun record hf => ?_
  subst hf
  split
  · exact .stay ⟨rfl, rfl⟩
  rename_i hs
  simp only [Bool.or_eq_true, decide_eq_true_eq, not_or, not_not] at hs
  split
  · exact .stay ⟨rfl, rfl⟩
  · exact writeAt_move dates rfl fun text => .reconcile input record _ rfl hs.1.1

lemma markUncertain_move (input : MarkUncertainInput) (file : Stored dates input.approval_id) :
    Moving dates (.markUncertain input) file (markUncertain dates input file) := by
  unfold markUncertain
  split
  · refine onRecord_move dates ⟨rfl, rfl⟩ fun record hf => ?_
    subst hf
    split
    · exact .stay ⟨rfl, rfl⟩
    rename_i hs
    simp only [Bool.or_eq_true, decide_eq_true_eq, not_or, not_not] at hs
    exact writeAt_move dates rfl fun text => .giveUp record _ ⟨rfl, rfl⟩ hs.1.1
  · exact .stay ⟨rfl, rfl⟩

lemma locked_move {files : Files dates} (call : Call)
    {action : Stored dates call.approval_id → Answer × Stored dates call.approval_id}
    (h : ∀ file, Moving dates call file (action file)) (id : String) :
    Move dates (clock dates) id (locked dates files call action).1 (view dates files id)
      (view dates (locked dates files call action).2 id) := by
  by_cases hid : call.approval_id = id
  · subst hid
    simpa [locked, view] using h (files call.approval_id)
  have hf := update_of_ne (Ne.symm hid) (action (files call.approval_id)).2 files
  simp only [locked, view, hf]
  exact .stay (quiet_of_ne hid _)

lemma create_move (files : Files dates) (binding : Binding) (id : String) :
    Move dates (clock dates) id (create dates files binding).1 (view dates files id)
      (view dates (create dates files binding).2 id) := by
  unfold create
  split
  · split
    · exact .stay ⟨rfl, rfl⟩
    next hn =>
      have hv : view dates (update files binding.approval_id
          (some (.opened binding rfl ‹_›))) id = view dates files id := by
        by_cases hid : id = binding.approval_id
        · subst hid
          simp [view, hn, Content.view]
        · simp [view, update_of_ne hid]
      simp only [hv]
      exact .stay ⟨rfl, rfl⟩
  · exact .stay ⟨rfl, rfl⟩

lemma fill_move (files : Files dates) (approval_id id : String) :
    Move dates (clock dates) id (fill dates files approval_id).1 (view dates files id)
      (view dates (fill dates files approval_id).2 id) := by
  unfold fill
  split
  next binding same valid ho =>
    by_cases hid : id = approval_id
    · subst hid
      simp only [view, ho, update_self]
      exact .create binding _ same valid rfl
    · simp only [view, update_of_ne hid]
      exact .stay ⟨rfl, rfl⟩
  · exact .stay ⟨rfl, rfl⟩

lemma step_move (files : Files dates) (e : Event) (id : String) :
    Move dates (clock dates) id (step dates files e).1 (view dates files id)
      (view dates (step dates files e).2 id) := by
  cases e with
  | fill approval_id => exact fill_move dates files approval_id id
  | call call now =>
    cases call with
    | create binding => exact create_move dates files binding id
    | review input => exact locked_move dates (.review input) (review_move dates input) id
    | approve input => exact locked_move dates (.approve input) (approve_move dates input) id
    | claim input drawn => exact locked_move dates (.claim input drawn) (claim_move dates input drawn) id
    | complete input => exact locked_move dates (.complete input) (complete_move dates input now) id
    | reconcile input => exact locked_move dates (.reconcile input) (reconcile_move dates input now) id
    | markUncertain input => exact locked_move dates (.markUncertain input) (markUncertain_move dates input) id

end File

theorem approved_call_executes_at_most_once (dates : Dates) (stamps : Postgres.Timestamps) :
    OncePerApproval dates ((Postgres.clock stamps).Exact dates) (Postgres.step dates stamps) Server.empty
        Server.rows ∧
      OncePerApproval dates (fun _ => True) (File.step dates) (fun _ => none) (File.view dates) := by
  constructor
  · exact .of_moves ⟨fun _ => rfl, Postgres.step_move dates stamps⟩ fun _ hx => hx
  · exact .of_moves ⟨fun _ => rfl, File.step_move dates⟩ fun text _ => File.clock_exact dates text

def newYear : String := "2027-01-01T00:00:00.000Z"

def oneDay : Dates where
  parse text := if text = newYear then some 1798761600000 else none
  toISOString ms := if ms = 1798761600000 then some newYear else none

def microseconds : Postgres.Timestamps where
  ofText text := (oneDay.parse text).map (1000 * ·)
  toTimestamp ms := some (1000 * ms).floor
  toISOString _ := some newYear
  parse time := some (time / 1000000 * 1000)

lemma microseconds_exact (text : String) : (Postgres.clock microseconds).Exact oneDay text := by
  intro expiry time now he hs hb
  obtain ⟨t, ht, hlt⟩ := hb
  obtain rfl := Option.some.inj ht
  have hp : oneDay.parse text = some expiry := by
    unfold canonicalExpiryMillis at he
    grind
  have htm : 1000 * expiry = time := by
    simpa [Postgres.clock, microseconds, hp] using hs
  subst htm
  have hc : 1000 * now < ((1000 * expiry : ℤ) : ℚ) := Rat.floor_lt_iff.mp hlt
  push_cast at hc
  exact (Rat.mul_lt_mul_left (by decide)).mp hc

def author : Identity := ⟨"tenant", "subject", "session", "turn", "mount", "author"⟩

def toolCall : Binding where
  approval_id := "approval"
  identity := author
  call := ⟨"service", "tool", ""⟩
  argument_digest := String.ofList (List.replicate 64 'a')
  expires_at := newYear

def overlappingClaims : List (Event Call ℤ) :=
  [.begin (.create toolCall), .finish 0 0,
    .begin (.approve ⟨"approval", author, toolCall.argument_digest, some 1⟩), .finish 0 0,
    .begin (.claim ⟨"approval", author, some 2, some 10⟩ "first-claim-of-two"),
    .begin (.claim ⟨"approval", author, some 2, some 10⟩ "second-claim-of-two"),
    .finish 1 0, .finish 0 0]

theorem approved_call_executes_at_most_once_overlapping :
    (Postgres.clock microseconds).Exact oneDay toolCall.expires_at ∧
    (answers (Postgres.step oneDay microseconds) Server.empty overlappingClaims).countP (claims "approval") = 1 ∧
    OncePerApproval oneDay ((Postgres.clock microseconds).Exact oneDay) (Postgres.step oneDay microseconds)
      Server.empty Server.rows ∧
    OncePerApproval oneDay (fun _ => True) (File.step oneDay) (fun _ => none) (File.view oneDay) :=
  ⟨microseconds_exact _, by decide +kernel, approved_call_executes_at_most_once oneDay microseconds⟩

end LeafWeb.Approval
