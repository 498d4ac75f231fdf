import LeafWeb.Lib.SlidingWindow
import LeafWeb.Lib.Transition
import Mathlib.Data.Real.Basic

/-! `embed` of the Lab contract: which messages of an embedding host are admitted. -/

namespace LeafWeb.Lab.Embed

open Lib Transition List Bool Prod

inductive Kind
  | shellReady | proposal | signedRequest | sourceValue | widgetPublishRequest | testTradeOpenRequest

def Kind.limit : Kind → ℕ
  | .sourceValue => 262144
  | .widgetPublishRequest => 40960
  | _ => 4096

structure Binding where
  (channel principalProof sourceSha : String)
  proposalRevision : ℕ
  proposalHash : String
  deriving DecidableEq

/-- What `embed` reads of a message that `lab-embed.v1.schema.json` admits. -/
structure Message where
  kind : Kind
  binding : Binding
  (sequence sentAtMs expiresAtMs : ℕ)

/-- A value of the host's context; `other` stands for everything that is not a finite number. -/
inductive Value
  | undefined
  | number (x : ℚ)
  | other

def safeInteger (n : ℕ) : Bool := n ≤ 9007199254740991

def nonnegativeInteger : Value → Option ℕ
  | .number x => if x.den = 1 ∧ 0 ≤ x ∧ safeInteger x.num.toNat then some x.num.toNat else none
  | _ => none

structure Context where
  authenticated : Bool
  (origin eventOrigin : Option String)
  (source eventSource : Option ℕ)
  -- `none` if one of the five fields has another type than the message's
  binding : Option Binding
  (nowMs wireBytes : Value)

def Context.hostMatches (context : Context) : Bool :=
  context.authenticated && context.origin.any (fun o => o ≠ "" ∧ o ≠ "*") &&
    context.eventOrigin = context.origin && context.source.isSome && context.eventSource = context.source

def Context.wireFits (context : Context) (limit : ℕ) : Bool :=
  match context.wireBytes with
  | .undefined => true
  | wireBytes => (nonnegativeInteger wireBytes).any (· ≤ limit)

structure State where
  sequence : ℕ
  acceptedAtMs : List ℕ

def State.empty : State := ⟨0, []⟩

def fresh (state : State) (message : Message) (now : ℕ) : Bool :=
  safeInteger state.sequence && state.acceptedAtMs.all (fun time => safeInteger time && time ≤ now) &&
    message.sentAtMs ≤ now && now < message.expiresAtMs && message.sentAtMs < message.expiresAtMs &&
    message.expiresAtMs - message.sentAtMs ≤ 30000 && state.sequence < message.sequence

variable {Raw : Type} (schema : Raw → Except String Message) (bytes : Raw → ℕ)

/-- `schema` checks and reads a message, `bytes` is the length of its canonical text. -/
def embed (raw : Raw) (context : Context) (state : State) : Except String Unit × State :=
  match schema raw with
  | .error refusal => (.error refusal, state)
  | .ok message =>
    if !context.hostMatches then (.error "Test: host mismatch", state)
    else if context.binding ≠ some message.binding then (.error "Test: host binding mismatch", state)
    else match nonnegativeInteger context.nowMs with
      | none => (.error "Test: replay refused", state)
      | some now =>
        if !fresh state message now then (.error "Test: replay refused", state)
        else if bytes raw > message.kind.limit || !context.wireFits message.kind.limit then
          (.error "Test: message byte limit", state)
        else if (recent 1000 now state.acceptedAtMs).length ≥ 20 then (.error "Test: message rate limit", state)
        else (.ok (), ⟨message.sequence, recent 1000 now state.acceptedAtMs ++ [now]⟩)

def step (state : State) (call : Raw × Context) : Except String Unit × State :=
  embed schema bytes call.1 call.2 state

def acceptance : (Raw × Context) × Except String Unit → Option (ℕ × ℕ)
  | (call, answer) =>
    match answer, schema call.1, nonnegativeInteger call.2.nowMs with
    | .ok _, .ok message, some now => some (message.sequence, now)
    | _, _, _ => none

lemma step_cases (state : State) (call : Raw × Context) :
    (((step schema bytes state call).1 ≠ .ok () ∧ (step schema bytes state call).2 = state) ∧
      acceptance schema (call, (step schema bytes state call).1) = none) ∨
    ∃ sequence now, state.sequence < sequence ∧ (∀ time ∈ state.acceptedAtMs, time ≤ now) ∧
      (recent 1000 now state.acceptedAtMs).length < 20 ∧
      (step schema bytes state call).2 = ⟨sequence, recent 1000 now state.acceptedAtMs ++ [now]⟩ ∧
      acceptance schema (call, (step schema bytes state call).1) = some (sequence, now) := by
  unfold step
  fun_cases embed schema bytes call.1 call.2 state
  case case8 message hs _ _ now hn hf _ hr =>
    simp only [fresh, not_eq_true', not_eq_false, and_eq_true, all_eq_true, decide_eq_true_eq] at hf
    refine .inr ⟨message.sequence, now, hf.2, fun time ht => ?_, not_le.mp hr, rfl, ?_⟩
    · exact (hf.1.1.1.1.1.2 time ht).2
    · simp [acceptance, hs, hn]
  all_goals exact .inl ⟨⟨nofun, rfl⟩, rfl⟩

variable {state : State}

structure Admitted (log : List (ℕ × ℕ)) (state : State) : Prop where
  increasing : (log.map fst).Pairwise (· < ·)
  below : ∀ sequence ∈ log.map fst, sequence ≤ state.sequence
  windowed : Windowed 1000 20 (log.map snd) state.acceptedAtMs

lemma Admitted.accept {log : List (ℕ × ℕ)} {now sequence : ℕ} (h : Admitted log state)
    (hs : state.sequence < sequence) (hn : ∀ time ∈ state.acceptedAtMs, time ≤ now)
    (hr : (recent 1000 now state.acceptedAtMs).length < 20) :
    Admitted (log ++ [(sequence, now)]) ⟨sequence, recent 1000 now state.acceptedAtMs ++ [now]⟩ := by
  have hlt : ∀ old ∈ log.map fst, old < sequence := fun old hold => (h.below old hold).trans_lt hs
  constructor
  · rw [map_append]
    exact pairwise_append.mpr ⟨h.increasing, pairwise_singleton _ _, by simpa using hlt⟩
  · intro old hold
    rw [map_append] at hold
    rcases mem_append.mp hold with hold | hold
    · exact (hlt old hold).le
    · exact (mem_singleton.mp hold).le
  · rw [map_append]
    exact h.windowed.append hn hr

lemma admitted_run (calls : List (Raw × Context)) :
    Admitted ((trace (step schema bytes) .empty calls).filterMap (acceptance schema))
      (after (step schema bytes) .empty calls) := by
  apply history (I := fun h state => Admitted (h.filterMap (acceptance schema)) state)
  · exact ⟨.nil, nofun, windowed_nil 1000 20⟩
  intro h state call hi
  rw [filterMap_append]
  rcases step_cases schema bytes state call with
    ⟨⟨-, hs⟩, hn⟩ | ⟨_, _, hsq, hnow, hr, hs, hsm⟩
  · rw [hs, filterMap_cons_none hn, filterMap_nil, append_nil]
    exact hi
  · rw [hs, filterMap_cons_some hsm, filterMap_nil]
    exact hi.accept hsq hnow hr

theorem embed_admission (calls : List (Raw × Context)) :
    let log := (trace (step schema bytes) .empty calls).filterMap (acceptance schema)
    (log.map fst).Pairwise (· < ·) ∧ (log.map snd).Pairwise (· ≤ ·) ∧
      (∀ t : ℝ, ((log.map snd).filter fun time : ℕ => t - 1000 < time ∧ time ≤ t).length ≤ 20) ∧
      (∀ state call, (step schema bytes state call).1 = .ok () → (acceptance schema (call, .ok ())).isSome) ∧
      ∀ state call, (step schema bytes state call).1 ≠ .ok () → (step schema bytes state call).2 = state := by
  intro log
  have admitted : Admitted log _ := admitted_run schema bytes calls
  refine ⟨admitted.increasing, admitted.windowed.ordered, fun t => ?_, fun state call hok => ?_,
    fun state call hr => ?_⟩
  · apply admitted.windowed.bounded _ filter_sublist
    intro a ha b hb
    simp only [mem_filter, decide_eq_true_eq] at ha hb
    have hlt : (b : ℝ) < a + 1000 := hb.2.2.trans_lt (sub_lt_iff_lt_add.mp ha.2.1)
    exact_mod_cast hlt
  · rcases step_cases schema bytes state call with ⟨⟨hr, -⟩, -⟩ | ⟨_, _, -, -, -, -, hs⟩
    · exact absurd hok hr
    · rw [hok] at hs
      exact Option.isSome_of_eq_some hs
  · rcases step_cases schema bytes state call with ⟨⟨-, hst⟩, -⟩ | ⟨_, _, -, -, -, -, hs⟩
    · exact hst
    · cases han : (step schema bytes state call).1 with
      | ok => exact absurd han hr
      | error =>
        rw [han] at hs
        cases hs

end LeafWeb.Lab.Embed
