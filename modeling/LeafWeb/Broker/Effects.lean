import LeafWeb.Broker.Store
import LeafWeb.Lib.Procedure

namespace LeafWeb.Broker

open Lib Procedure AdmissionRow Bool

structure Cell where
  admission : Option AdmissionRow
  ledger : Option LedgerRow
  slot : Option SlotRow

def Db.cell (db : Db) (k : String) : Cell := ⟨db.admissions.find k, db.ledger.find k, db.slots.find k⟩

inductive Agree : Cell → Prop
  | absent : Agree ⟨none, none, none⟩
  | leased {a : AdmissionRow} (hs : a.state.isLeased) (hi : a.terminalIntent = none)
      (hw : a.accountedWork = false) : Agree ⟨some a, none, none⟩
  | executing {a : AdmissionRow} {slot : Option SlotRow} (hs : a.state.isExecuting)
      (hslot : slot.map (·.state) = if a.accountedWork then some .held else none) :
      Agree ⟨some a, none, slot⟩
  | terminal {a : AdmissionRow} {l : LedgerRow} {slot : Option SlotRow} (hs : a.state.isTerminal)
      (hslot : slot.map (·.state) ≠ some .held)
      (hi : ∀ i, a.terminalIntent = some i → l.entry = i.ledgerEntry ∧
        ∃ started at', a.state = .terminal started i.result i.httpStatus at') :
      Agree ⟨some a, some l, slot⟩

def Consistent (db : Db) : Prop := ∀ k, Agree (db.cell k)

def terminalOf (db : Db) : Event → Option (String × Terminal)
  | .settle key _ _ _ =>
    ((db.admissions.find key).bind (·.terminalIntent)).map fun i => (key, i.terminal)
  | .complete o t _ => some (strip o.eventKey, t)
  | .reconcile key _ _ _ t _ => some (key, t)
  | _ => none

inductive Finish (db : Db) (key : String) (t : Terminal) (accounted : Option Bool) : Db → Prop
  | mk {a : AdmissionRow} {entry : LedgerEntry} {ledger : Table LedgerRow.eventKey}
      {reason : String} {audit : List AuditRow} {now : ℤ}
      (hfind : db.admissions.find key = some a) (hopen : a.state.isTerminal = false)
      (htenant : a.tenantId = entry.tenantId) (hcost : entry.counted = t.entry.counted)
      (hintent : ∀ i, a.terminalIntent = some i → t = i.terminal ∧ entry = i.ledgerEntry)
      (hins : db.ledger.insert ⟨key, entry⟩ = some ledger) :
      Finish db key t accounted
        { admissions := (db.modifyAdmission key (finish t accounted now)
            (finish_eventKey t accounted now)).admissions
          ledger := ledger
          slots := (releaseSlot db key reason).slots
          audit := audit }

inductive Effect (db : Db) : Event → Except BrokerError Answer → Db → Prop
  | raised {e : Event} {x : BrokerError} : Effect db e (.error x) db
  | idle {e : Event} {answer : Answer}
      (ha : answer = .staged ∨ answer = .settled true ∨ answer = .completed) :
      Effect db e (.ok answer) db
  | duplicated {r : RunRequest} {token : String} {now : ℤ} {a : AdmissionRow} {d : Decision}
      (hfind : db.admissions.find r.key = some a) (hd : duplicate a r now = some d) :
      Effect db (.admitRun r token now) (.ok (.admitted d)) db
  | leased {r : RunRequest} {token : String} {now : ℤ} {t : Table eventKey}
      (hkey : r.key ≠ "")
      (hins : db.admissions.insert (r.row token now (quota db r token now false).2) = some t) :
      Effect db (.admitRun r token now) (.ok (.admitted (quota db r token now false).1))
        { db with admissions := t }
  | reclaimed {r : RunRequest} {token : String} {now : ℤ} {a : AdmissionRow}
      (hfind : db.admissions.find r.key = some a) (hd : duplicate a r now = none) :
      Effect db (.admitRun r token now) (.ok (.admitted (quota db r token now true).1))
        (db.modifyAdmission r.key (reclaim r token now (quota db r token now true).2)
          (reclaim_eventKey r token now (quota db r token now true).2))
  | refused {o : Owner} {live : Bool} {max now : ℤ} :
      Effect db (.mark o live max now) (.ok (.started false)) db
  | lapsed {o : Owner} {live : Bool} {max now : ℤ} {a : AdmissionRow}
      (hfind : db.admissions.find o.eventKey = some a) (hs : a.state.isLeased) :
      Effect db (.mark o live max now) (.ok (.started false))
        (db.modifyAdmission o.eventKey (lapse now) (lapse_eventKey now))
  | started {o : Owner} {live : Bool} {max now : ℤ} {a : AdmissionRow}
      {slots : Table SlotRow.eventKey}
      (hfind : db.admissions.find o.eventKey = some a) (howns : o.owns a)
      (hs : a.state.leasedAfter now)
      (hslots : if live then db.slots.insert ⟨o.eventKey, o.tenantId, .held⟩ = some slots ∧
        heldSlots db < max else slots = db.slots) :
      Effect db (.mark o live max now) (.ok (.started true))
        { db with
          admissions := (db.modifyAdmission o.eventKey (start now live) (start_eventKey now live)).admissions
          slots := slots }
  | staged {o : Owner} {i : SuccessIntent} {a : AdmissionRow}
      (hfind : db.admissions.find o.eventKey = some a) (hs : a.state.isExecuting)
      (hnone : a.terminalIntent = none) :
      Effect db (.stage o i) (.ok .staged) (db.modifyAdmission o.eventKey (stage i) (stage_eventKey i))
  | finished {e : Event} {key : String} {t : Terminal} {accounted : Option Bool} {answer : Answer}
      {db' : Db} (hterm : terminalOf db e = some (key, t))
      (hacc : accounted = none ∨ ∃ key tenant resolution note t now,
        e = .reconcile key tenant resolution note t now)
      (hf : Finish db key t accounted db') (ha : answer = .completed ∨ answer = .settled false) :
      Effect db e (.ok answer) db'

variable {db db' : Db} {key tenantId token actor resolution : String} {cond : AdmissionRow → Bool}
  {failure : BrokerError} {note : Option AuditNote} {t : Terminal} {now status : ℤ} {a : AdmissionRow}
  {f : AdmissionRow → AdmissionRow} {entry : LedgerEntry} {i : SuccessIntent}

lemma updateAdmission_some {hf : ∀ (a : AdmissionRow), (f a).eventKey = a.eventKey}
    (h : updateAdmission db key cond f hf = .ok (some db')) :
    ∃ a, db.admissions.find key = some a ∧ cond a = true ∧ db' = db.modifyAdmission key f hf := by
  rw [updateAdmission] at h
  split at h
  · cases h
  next a hfn =>
    split_ifs at h with hc
    · obtain ⟨_, _, h⟩ := except_bind_ok h
      cases h
      exact ⟨a, hfn, hc, rfl⟩
    · cases h

lemma requireRow_ok {updated : Option Db} (h : requireRow updated failure = .ok db') : updated = some db' := by
  cases updated with
  | none => cases h
  | some db => cases h; rfl

lemma insertLedger_ok (h : insertLedger db key entry = .ok db') :
    ∃ ledger, db.ledger.insert ⟨key, entry⟩ = some ledger ∧ db' = { db with ledger := ledger } := by
  rw [insertLedger] at h
  split_ifs at h
  split at h
  next ledger hi => cases h; exact ⟨ledger, hi, rfl⟩
  · cases h

lemma insertLedgerOnce_ok (hn : db.ledger.find key = none) (h : insertLedgerOnce db key entry = .ok db') :
    ∃ ledger, db.ledger.insert ⟨key, entry⟩ = some ledger ∧ db' = { db with ledger := ledger } := by
  rw [insertLedgerOnce, hn] at h
  exact insertLedger_ok h

lemma holdSlot_ok (h : holdSlot db key tenantId = .ok db') :
    ∃ slots, db.slots.insert ⟨key, tenantId, .held⟩ = some slots ∧ db' = { db with slots := slots } := by
  rw [holdSlot] at h
  split_ifs at h
  split at h
  next slots hi => cases h; exact ⟨slots, hi, rfl⟩
  · cases h

lemma insertAudit_ok {row : AuditRow} (h : insertAudit db row = .ok db') :
    ∃ audit, db' = { db with audit := audit } := by
  rw [insertAudit] at h
  split_ifs at h
  cases h
  exact ⟨_, rfl⟩

lemma auditIntent_ok (h : auditIntent db key tenantId status note = .ok db') :
    ∃ audit, db' = { db with audit := audit } := by
  cases note with
  | none => cases h; exact ⟨db.audit, rfl⟩
  | some n => exact insertAudit_ok h

lemma finishAdmission_ok {accounted : Option Bool}
    (h : finishAdmission db key cond t accounted now failure = .ok db') :
    ∃ a, db.admissions.find key = some a ∧ a.tenantId = t.entry.tenantId ∧ cond a = true ∧
      db' = db.modifyAdmission key (finish t accounted now) (finish_eventKey t accounted now) := by
  rw [finishAdmission] at h
  split_ifs at h
  obtain ⟨updated, hu, h⟩ := except_bind_ok h
  rw [requireRow_ok h] at hu
  obtain ⟨a, hf, hc, hdb⟩ := updateAdmission_some hu
  simp only [and_eq_true, decide_eq_true_eq] at hc
  exact ⟨a, hf, hc.1, hc.2, hdb⟩

lemma insertLease_ok {row : AdmissionRow} (h : insertLease db row = .ok db') :
    ∃ t, db.admissions.insert row = some t ∧ db' = { db with admissions := t } := by
  rw [insertLease] at h
  split_ifs at h
  split at h
  next t hi => cases h; exact ⟨t, hi, rfl⟩
  · cases h

lemma lockIntentAdmission_ok (h : lockIntentAdmission db key tenantId = .ok a) :
    db.admissions.find key = some a := by
  rw [lockIntentAdmission] at h
  split at h
  · cases h
  next hf =>
    split_ifs at h
    cases h
    exact hf

lemma intentOf_ok (h : intentOf a key tenantId = .ok i) : a.terminalIntent = some i := by
  rw [intentOf] at h
  split at h
  · cases h
  next hi =>
    obtain ⟨_, _, h⟩ := except_bind_ok h
    cases h
    exact hi

variable {s : AdmissionState} {live b : Bool} {max : ℤ} {o : Owner} {already : Bool} {payload : SuccessIntent}

lemma isTerminal_of_isLeased (h : s.isLeased) : s.isTerminal = false := by
  cases s <;> first | rfl | cases h

lemma isTerminal_of_isExecuting (h : s.isExecuting) : s.isTerminal = false := by
  cases s <;> first | rfl | cases h

lemma admitRun_effect {d : Decision} {r : RunRequest} (h : admitRun db r token now = .ok (d, db')) :
    Effect db (.admitRun r token now) (.ok (.admitted d)) db' := by
  rw [admitRun] at h
  split_ifs at h with hk
  split at h
  next hf =>
    obtain ⟨db₁, hi, h⟩ := except_bind_ok h
    obtain ⟨t, hins, rfl⟩ := insertLease_ok hi
    cases h
    exact .leased hk hins
  next a hf =>
    split at h
    next hd =>
      cases h
      exact .duplicated hf hd
    next hd =>
      obtain ⟨db₁, hi, h⟩ := except_bind_ok h
      obtain ⟨updated, hu, hi⟩ := except_bind_ok hi
      rw [requireRow_ok hi] at hu
      obtain ⟨_, _, _, rfl⟩ := updateAdmission_some hu
      cases h
      exact .reclaimed hf hd

lemma startExecution_effect (hh : ¬ (live = true ∧ max ≤ heldSlots db))
    (h : startExecution db o live now = .ok (b, db')) :
    Effect db (.mark o live max now) (.ok (.started b)) db' := by
  obtain ⟨updated, hu, h⟩ := except_bind_ok h
  obtain ⟨db₁, hr, h⟩ := except_bind_ok h
  rw [requireRow_ok hr] at hu
  obtain ⟨a, hf, hc, rfl⟩ := updateAdmission_some hu
  rw [and_eq_true] at hc
  cases live with
  | true =>
    obtain ⟨db₂, hs, h⟩ := except_bind_ok h
    obtain ⟨slots, hi, rfl⟩ := holdSlot_ok hs
    cases h
    refine .started hf hc.1 hc.2 ?_
    exact ⟨hi, not_le.mp fun hle => hh ⟨rfl, hle⟩⟩
  | false =>
    cases h
    exact .started hf hc.1 hc.2 rfl

lemma markExecutionStarted_effect (h : markExecutionStarted db o live max now = .ok (b, db')) :
    Effect db (.mark o live max now) (.ok (.started b)) db' := by
  rw [markExecutionStarted] at h
  split_ifs at h with hm hh
  · obtain ⟨updated, hu, h⟩ := except_bind_ok h
    cases updated with
    | none =>
      cases h
      exact .refused
    | some db₁ =>
      obtain ⟨a, hf, hc, rfl⟩ := updateAdmission_some hu
      rw [and_eq_true] at hc
      cases h
      exact .lapsed hf hc.2
  · exact startExecution_effect hh h

lemma stageSuccessIntent_effect (h : stageSuccessIntent db o payload = .ok db') :
    Effect db (.stage o payload) (.ok .staged) db' := by
  obtain ⟨a, ha, h⟩ := except_bind_ok h
  obtain ⟨_, _, h⟩ := except_bind_ok h
  have hf := lockIntentAdmission_ok ha
  split_ifs at h with ho hi
  · obtain ⟨_, _, h⟩ := except_bind_ok h
    obtain ⟨intent, _, h⟩ := except_bind_ok h
    split_ifs at h
    cases h
    exact .idle (Or.inl rfl)
  · obtain ⟨_, _, h⟩ := except_bind_ok h
    obtain ⟨updated, hu, h⟩ := except_bind_ok h
    cases updated with
    | none =>
      cases h
      exact .idle (Or.inl rfl)
    | some db₁ =>
      obtain ⟨_, _, _, rfl⟩ := updateAdmission_some hu
      cases h
      exact .staged hf ho.1 (Option.not_isSome_iff_eq_none.mp hi)

lemma counted_normalized (entry : LedgerEntry) : entry.normalized.counted = entry.counted := rfl

lemma map_ok {α β : Type} {x : Except BrokerError α} {f : α → β} {b : β} (h : x.map f = .ok b) :
    ∃ a, x = .ok a ∧ f a = b := by
  cases x with
  | error e => cases h
  | ok a => cases h; exact ⟨a, rfl, rfl⟩

variable (hc : Consistent db)
include hc

lemma Consistent.no_ledger (hf : db.admissions.find key = some a) (ho : a.state.isTerminal = false) :
    db.ledger.find key = none := by
  have h := hc key
  rw [Db.cell, hf] at h
  generalize db.ledger.find key = l, db.slots.find key = s at h ⊢
  cases h with
  | leased | executing => rfl
  | terminal hs => rw [hs] at ho; cases ho

lemma settleIntent_ok (hf : db.admissions.find key = some a)
    (h : settleIntent db a key tenantId note now = .ok (already, db')) :
    ∃ i, a.terminalIntent = some i ∧
      ((already = true ∧ db' = db) ∨ (already = false ∧ Finish db key i.terminal none db')) := by
  obtain ⟨i, hi, h⟩ := except_bind_ok h
  obtain ⟨ledger, _, h⟩ := except_bind_ok h
  have hin := intentOf_ok hi
  refine ⟨i, hin, ?_⟩
  cases hs : a.state with
  | terminal started result status at' =>
    simp only [hs] at h
    split_ifs at h
    cases h
    exact Or.inl ⟨rfl, rfl⟩
  | leased expires =>
    rw [hs] at h
    cases h
  | executing started =>
    have ho : a.state.isTerminal = false := by rw [hs]; rfl
    simp only [hs] at h
    obtain ⟨db₁, h₁, h⟩ := except_bind_ok h
    obtain ⟨db₂, h₂, h⟩ := except_bind_ok h
    obtain ⟨db₃, h₃, h⟩ := except_bind_ok h
    obtain ⟨table, hins, rfl⟩ := insertLedgerOnce_ok (hc.no_ledger hf ho) h₁
    obtain ⟨b, hb, ht, _, rfl⟩ := finishAdmission_ok h₂
    obtain ⟨audit, rfl⟩ := auditIntent_ok h₃
    cases h
    cases hb.symm.trans hf
    refine Or.inr ⟨rfl, .mk hf ho ht rfl ?_ hins⟩
    intro j hj
    cases hj.symm.trans hin
    exact ⟨rfl, rfl⟩

lemma settleSuccessIntent_effect (h : settleSuccessIntent db key tenantId actor now = .ok (already, db')) :
    Effect db (.settle key tenantId actor now) (.ok (.settled already)) db' := by
  rw [settleSuccessIntent] at h
  split_ifs at h
  all_goals
    obtain ⟨a, ha, h⟩ := except_bind_ok h
    have hfn := lockIntentAdmission_ok ha
    obtain ⟨i, hi, ⟨rfl, rfl⟩ | ⟨rfl, hf⟩⟩ := settleIntent_ok hc hfn h
    · exact .idle (Or.inr (Or.inl rfl))
    · refine .finished ?_ (Or.inl rfl) hf (Or.inr rfl)
      simp [terminalOf, hfn, hi]

lemma completeRun_effect (h : completeRun db o t now = .ok db') :
    Effect db (.complete o t now) (.ok .completed) db' := by
  obtain ⟨_, _, h⟩ := except_bind_ok h
  split at h
  · cases h
  next a hfn =>
    split_ifs at h with ht hi htr htk
    · obtain ⟨i, hi, h⟩ := except_bind_ok h
      split_ifs at h with hsm
      obtain ⟨⟨already, db₁⟩, hs, h⟩ := except_bind_ok h
      cases h
      obtain ⟨j, hj, ⟨rfl, rfl⟩ | ⟨rfl, hf⟩⟩ := settleIntent_ok hc hfn hs
      · exact .idle (Or.inr (Or.inr rfl))
      cases hj.symm.trans (intentOf_ok hi)
      rw [← hsm.2.1] at hf
      exact .finished rfl (Or.inl rfl) hf (Or.inl rfl)
    · cases h
      exact .idle (Or.inr (Or.inr rfl))
    · have ho : a.state.isTerminal = false := by simpa using htr
      obtain ⟨db₁, h₁, h⟩ := except_bind_ok h
      obtain ⟨db₂, h₂, h⟩ := except_bind_ok h
      obtain ⟨table, hins, rfl⟩ := insertLedgerOnce_ok (hc.no_ledger hfn ho) h₁
      obtain ⟨b, hb, he, _, rfl⟩ := finishAdmission_ok h₂
      cases h
      cases hb.symm.trans hfn
      have ht : a.tenantId = t.entry.normalized.tenantId := he
      refine .finished rfl (Or.inl rfl) ?_ (Or.inl rfl)
      refine .mk hfn ho ht (counted_normalized t.entry) ?_ hins
      intro i hi'
      rw [hi'] at hi
      exact absurd rfl hi

lemma reconcileExecuting_effect {note : AuditNote}
    (h : reconcileExecuting db key tenantId resolution note t now = .ok (already, db')) :
    Effect db (.reconcile key tenantId resolution note t now) (.ok (.settled already)) db' := by
  obtain ⟨_, _, h⟩ := except_bind_ok h
  split at h
  · cases h
  next a hfn =>
    split_ifs at h with ht hi hec
    · obtain ⟨i, hi, h⟩ := except_bind_ok h
      split_ifs at h with hs
      obtain ⟨j, hj, ⟨rfl, rfl⟩ | ⟨rfl, hf⟩⟩ := settleIntent_ok hc hfn h
      · exact .idle (Or.inr (Or.inl rfl))
      cases hj.symm.trans (intentOf_ok hi)
      rw [← hs.2] at hf
      exact .finished rfl (Or.inl rfl) hf (Or.inr rfl)
    · have ho := isTerminal_of_isExecuting hec
      obtain ⟨db₁, h₁, h⟩ := except_bind_ok h
      obtain ⟨db₂, h₂, h⟩ := except_bind_ok h
      obtain ⟨db₃, h₃, h⟩ := except_bind_ok h
      obtain ⟨table, hins, rfl⟩ := insertLedger_ok h₁
      obtain ⟨b, hb, he, _, rfl⟩ := finishAdmission_ok h₂
      obtain ⟨audit, rfl⟩ := insertAudit_ok h₃
      cases h
      cases hb.symm.trans hfn
      have ht : a.tenantId = t.entry.normalized.tenantId := he
      refine .finished rfl (Or.inr ⟨_, _, _, _, _, _, rfl⟩)
        (.mk hfn ho ht (counted_normalized t.entry) ?_ hins) (Or.inr rfl)
      intro i hi'
      rw [hi'] at hi
      exact absurd rfl hi

lemma transact_effect {answer : Answer} {e : Event} (h : transact db e = .ok (answer, db')) :
    Effect db e (.ok answer) db' := by
  cases e <;> obtain ⟨x, hx, hxy⟩ := map_ok h <;> cases hxy
  case admitRun => exact admitRun_effect hx
  case mark => exact markExecutionStarted_effect hx
  case stage => exact stageSuccessIntent_effect hx
  case settle => exact settleSuccessIntent_effect hc hx
  case complete => exact completeRun_effect hc hx
  case reconcile => exact reconcileExecuting_effect hc hx

theorem step_effect (e : Event) : Effect db e (step db e).1 (step db e).2 := by
  rw [step]
  cases h : transact db e with
  | error x => exact .raised
  | ok p => exact transact_effect hc h

end LeafWeb.Broker
