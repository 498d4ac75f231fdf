import LeafWeb.Campaign.DeveloperLedger

namespace LeafWeb.Campaign.Developer

open Lib Transition Table Option Reservation Operation Allocation Prod Nat String Except

variable {n m : ℕ} {operation_id : String}

lemma toNat_digit (n : ℕ) : (digit n).toNat = 48 + n % 10 := by
  have ha : ∀ m < 10, (Char.ofNat (48 + m)).toNat = 48 + m := by decide
  exact ha (n % 10) (mod_lt n (by decide))

lemma number_eightDigits (h : n ≤ 99999999) : number (eightDigits n) = n := by
  simp only [number, eightDigits, List.foldl_cons, List.foldl_nil, toNat_digit]
  omega

lemma attemptId_injective (hm : m ≤ 99999999)
    (hn : n ≤ 99999999) (h : attemptId operation_id m = attemptId operation_id n) : m = n := by
  have hl := congrArg String.toList h
  simp only [attemptId, toList_ofList, List.append_cancel_left_eq, List.cons.injEq, true_and] at hl
  rw [← number_eightDigits hm, hl, number_eightDigits hn]

variable {reservations : Table key} {a : Allocation} {r r' r'' : Reservation} {scope : Scope} {k : String × ℕ}
  {f : Reservation → Reservation}

def reservedIn (scope : Scope) (r : Reservation) : ℤ := if unsettled scope r then r.reservation_microusd else 0

def spentIn (scope : Scope) (r : Reservation) : ℤ :=
  if r.scope = scope then r.settlement.elim 0 Settlement.cost_microusd else 0

structure Accounted (reservations : Table key) (a : Allocation) : Prop where
  reserved : a.reserved_microusd = reservations.total (reservedIn a.scope)
  spent : a.spent_microusd = reservations.total (spentIn a.scope)
  within : a.spent_microusd + a.reserved_microusd ≤ a.limit_microusd
  active : (reservations.rows.countP (unsettled a.scope) : ℤ) ≤ a.max_active

lemma reservedIn_of_ne (h : r.scope ≠ scope) : reservedIn scope r = 0 := by
  simp [reservedIn, unsettled, h]

lemma spentIn_of_ne (h : r.scope ≠ scope) : spentIn scope r = 0 := by
  simp [spentIn, h]

lemma unsettled_of_ne (h : r.scope ≠ scope) : unsettled scope r = false := by
  simp [unsettled, h]

lemma Accounted.of_none (hs : ∀ r ∈ reservations.rows, r.scope ≠ a.scope)
    (hrs : a.reserved_microusd = 0) (hsp : a.spent_microusd = 0)
    (hl : 0 ≤ a.limit_microusd) (ha : 0 ≤ a.max_active) : Accounted reservations a where
  reserved := by
    rw [hrs, total, List.map_congr_left fun r hr => reservedIn_of_ne (hs r hr)]
    simp
  spent := by
    rw [hsp, total, List.map_congr_left fun r hr => spentIn_of_ne (hs r hr)]
    simp
  within := by rwa [hrs, hsp, add_zero]
  active := by
    rw [List.countP_eq_zero.mpr fun r hr => by rw [unsettled_of_ne (hs r hr)]; decide]
    exact ha

section

variable (h : Accounted reservations a) {reservations' : Table key}
include h

lemma Accounted.insert_other (hi : reservations.insert r = some reservations') (hr : r.scope ≠ a.scope) :
    Accounted reservations' a where
  reserved := by rw [total_insert _ hi, reservedIn_of_ne hr, add_zero, h.reserved]
  spent := by rw [total_insert _ hi, spentIn_of_ne hr, add_zero, h.spent]
  within := h.within
  active := by
    rw [(insert_rows hi).1, List.countP_append]
    simpa [unsettled_of_ne hr] using h.active

lemma Accounted.insert (hi : reservations.insert r = some reservations') (hs : r.scope = a.scope)
    (ho : r.settlement = none) (ha : (reservations.rows.countP (unsettled a.scope) : ℤ) < a.max_active)
    (hl : a.spent_microusd + a.reserved_microusd + r.reservation_microusd ≤ a.limit_microusd) :
    Accounted reservations' (a.add 0 r.reservation_microusd) where
  reserved := by
    rw [total_insert _ hi]
    simp [add, reservedIn, unsettled, hs, ho, h.reserved]
  spent := by
    rw [total_insert _ hi]
    simp [add, spentIn, ho, h.spent]
  within := by
    simp only [add]
    omega
  active := by
    rw [(insert_rows hi).1, List.countP_append]
    simp only [add, unsettled, hs, ho, List.countP_singleton] at ha ⊢
    simp only [decide_true, isNone_none, Bool.and_true, if_true] at ha ⊢
    omega

lemma Accounted.modify_same (hf : ∀ r, (f r).key = r.key)
    (hfn : reservations.find k = some r) (hr : reservedIn a.scope (f r) = reservedIn a.scope r)
    (hs : spentIn a.scope (f r) = spentIn a.scope r)
    (ha : ∀ r ∈ reservations.rows, r.key = k → unsettled a.scope (f r) → unsettled a.scope r) :
    Accounted (reservations.modify k f hf) a where
  reserved := by
    rw [(Replaces.modify hfn f hf).total, hr, ← total_of_find _ hfn, h.reserved]
  spent := by
    rw [(Replaces.modify hfn f hf).total, hs, ← total_of_find _ hfn, h.spent]
  within := h.within
  active := by
    have hle := countP_modify_le hf ha fun _ _ _ hp => hp
    exact le_trans (by exact_mod_cast hle) h.active

lemma Accounted.settle {x : Settlement} (hf : reservations.find k = some r) (hs : r.scope = a.scope)
    (ho : r.settlement = none) (hc : x.cost_microusd ≤ r.reservation_microusd) :
    Accounted (reservations.modify k (.settle x) (Reservation.key_settle x))
      (a.add x.cost_microusd (-r.reservation_microusd)) where
  reserved := by
    have hb := total_of_find (reservedIn a.scope) hf
    rw [(Replaces.modify hf (.settle x) (Reservation.key_settle x)).total]
    simp only [add, h.reserved, hb]
    simp [reservedIn, unsettled, Reservation.settle, hs, ho]
  spent := by
    have hb := total_of_find (spentIn a.scope) hf
    rw [(Replaces.modify hf (.settle x) (Reservation.key_settle x)).total]
    simp only [add, h.spent, hb]
    simp [spentIn, Reservation.settle, hs, ho, add_comm]
  within := by
    have := h.within
    simp only [add]
    omega
  active := by
    have hle : (reservations.modify k (.settle x) (Reservation.key_settle x)).rows.countP (unsettled a.scope) ≤
        reservations.rows.countP (unsettled a.scope) := by
      refine countP_modify_le _ ?_ fun _ _ _ hp => hp
      intro r _ _ hp
      simp [unsettled, Reservation.settle] at hp
    exact le_trans (by exact_mod_cast hle) h.active

end

variable {db db' db'' : Db}

structure Linked (db : Db) : Prop where
  funded : ∀ o ∈ db.operations.rows, (db.allocations.find o.scope).isSome
  tasks : ∀ o ∈ db.operations.rows, ∀ o' ∈ db.operations.rows, o.scope = o'.scope → o.task_id = o'.task_id → o = o'
  held : ∀ r ∈ db.reservations.rows, ∃ o, db.operations.find r.operation_id = some o ∧
    o.scope = r.scope ∧ r.sequence ≤ o.current_sequence ∧
    (r.settlement = none → r.sequence = o.current_sequence)
  named : ∀ r ∈ db.reservations.rows,
    r.developer_attempt_id = attemptId r.operation_id r.sequence ∧ 1 ≤ r.sequence ∧
    r.sequence ≤ 99999999 ∧
    ∀ id, r.expected_attempt_id = some id → 1 < r.sequence ∧ id = attemptId r.operation_id (r.sequence - 1)

structure Sound (db : Db) : Prop extends Linked db where
  accounted : ∀ a ∈ db.allocations.rows, Accounted db.reservations a

structure Follows (r r' : Reservation) : Prop where
  same : r' = { r with admitted := r'.admitted, settlement := r'.settlement }
  admitted : r.admitted = true → r'.admitted = true
  settlement : ∀ x, r.settlement = some x → r'.settlement = some x

structure Grows (db db' : Db) : Prop where
  allocations : ∀ s, (db.allocations.find s).isSome → (db'.allocations.find s).isSome
  operations : ∀ k o, db.operations.find k = some o → ∃ o', db'.operations.find k = some o' ∧
    o'.scope = o.scope ∧ o'.task_id = o.task_id ∧ o'.idempotency_key = o.idempotency_key ∧
    o.current_sequence ≤ o'.current_sequence
  reservations : ∀ k r, db.reservations.find k = some r → ∃ r', db'.reservations.find k = some r' ∧ Follows r r'

lemma Follows.refl (r : Reservation) : Follows r r := ⟨rfl, id, fun _ => id⟩

lemma Follows.trans (h : Follows r r') (h' : Follows r' r'') : Follows r r'' where
  same := by rw [h'.same, h.same]
  admitted hr := h'.admitted (h.admitted hr)
  settlement x hx := h'.settlement x (h.settlement x hx)

lemma Grows.refl (db : Db) : Grows db db where
  allocations _ := id
  operations _ o ho := ⟨o, ho, rfl, rfl, rfl, le_rfl⟩
  reservations _ r hr := ⟨r, hr, .refl r⟩

lemma Grows.trans (h : Grows db db') (h' : Grows db' db'') : Grows db db'' where
  allocations s hs := h'.allocations s (h.allocations s hs)
  operations k o ho := by
    obtain ⟨o', ho', hsc, ht, hk, hle⟩ := h.operations k o ho
    obtain ⟨o'', ho'', hsc', ht', hk', hle'⟩ := h'.operations k o' ho'
    exact ⟨o'', ho'', hsc'.trans hsc, ht'.trans ht, hk'.trans hk, hle.trans hle'⟩
  reservations k r hr := by
    obtain ⟨r', hr', hf⟩ := h.reservations k r hr
    obtain ⟨r'', hr'', hf'⟩ := h'.reservations k r' hr'
    exact ⟨r'', hr'', hf.trans hf'⟩

variable {world : World} {result : Result} {ref : Ref} {attempt operation : String} {call : Call}

section

structure Admissible (db : Db) (a : Allocation) (amount : ℤ) : Prop where
  active : (db.reservations.rows.countP (unsettled a.scope) : ℤ) < a.max_active
  limit : a.spent_microusd + a.reserved_microusd + amount ≤ a.limit_microusd

inductive Change (db : Db) : Db → Prop
  | none : Change db db
  | allocate (a : Allocation) (allocations : Table Allocation.scope)
      (inserted : db.allocations.insert a = some allocations) (spent : a.spent_microusd = 0)
      (reserved : a.reserved_microusd = 0) (limit : 1 ≤ a.limit_microusd) (active : 1 ≤ a.max_active) :
      Change db { db with allocations }
  | prepare (op : Operation) (a : Allocation) (amount : ℤ)
      (operations : Table Operation.operation_id) (reservations : Table key)
      (allocated : db.allocations.find op.scope = some a)
      (inserted : db.operations.insert op = some operations) (first : op.current_sequence = 1)
      (free : ∀ o ∈ db.operations.rows, o.scope = op.scope → o.task_id ≠ op.task_id)
      (admissible : Admissible db a amount)
      (reserved : db.reservations.insert (op.reserving op.scope amount .none) = some reservations) :
      Change db ({ db with operations, reservations }.addTo op.scope 0 amount)
  | retry (op : Operation) (a : Allocation) (amount : ℤ) (row : Reservation)
      (reservations : Table key)
      (allocated : db.allocations.find op.scope = some a)
      (found : db.operations.find op.operation_id = some op)
      (current : db.reservations.find (op.operation_id, op.current_sequence) = some row)
      (settled : row.settlement ≠ .none) (bound : op.current_sequence + 1 ≤ 99999999)
      (admissible : Admissible db a amount)
      (reserved : db.reservations.insert
        (op.advance.reserving op.scope amount (some row.developer_attempt_id)) = some reservations) :
      Change db ({ db with
        operations := db.operations.modify op.operation_id advance operation_id_advance
        reservations }.addTo op.scope 0 amount)
  | admission (k : String × ℕ) (row : Reservation) (found : db.reservations.find k = some row) :
      Change db (db.modifyReservation k .withAdmission key_withAdmission)
  | settle (a : Allocation) (k : String × ℕ) (row : Reservation) (x : Settlement)
      (allocated : db.allocations.find row.scope = some a)
      (found : db.reservations.find k = some row) (unsettled : row.settlement = .none)
      (cost : x.cost_microusd ≤ row.reservation_microusd) :
      Change db ((db.modifyReservation k (.settle x) (key_settle x)).addTo row.scope x.cost_microusd
        (-row.reservation_microusd))

variable {texts : Texts}

lemma _int_ok {value low high : ℤ} {u : Unit} : _int value low high = .ok u ↔ low ≤ value ∧ value ≤ high := by
  rw [_int, refuse_eq_ok, not_not]

variable {op : Operation} {amount limit fence cost : ℤ}
  {campaign org project operation parent task expected : String}

lemma key_of_find (h : db.reservations.find (operation, n) = some r) :
    r.operation_id = operation ∧ r.sequence = n := by
  have hk : r.key = (operation, n) := find_key h
  exact mk.inj hk

lemma _allocation_ok : _allocation db scope = .ok a ↔ db.allocations.find scope = some a := demand_eq_ok

lemma _operation_ok :
    _operation db scope operation_id = .ok op ↔ isHex 64 operation_id = true ∧
      db.operations.find operation_id = some op ∧ op.scope = scope := by
  simp [_operation]

lemma _current_ok {sequence : ℕ} :
    _current db scope op sequence = .ok r ↔
      db.reservations.find (op.operation_id, sequence) = some r ∧ r.scope = scope := by
  simp [_current]

lemma _reserve_ok {previous : Option String} (h : _reserve db scope a op amount previous = .ok (result, db')) :
    (db.reservations.rows.countP (unsettled scope) : ℤ) < a.max_active ∧
    a.spent_microusd + a.reserved_microusd + amount ≤ a.limit_microusd ∧
    ∃ reservations, db.reservations.insert (op.reserving scope amount previous) = some reservations ∧
      db' = { db with reservations }.addTo scope 0 amount := by
  simp only [_reserve, bind_refuse, bind_demand] at h
  obtain ⟨ha, hl, -, reservations, hi, -, rfl⟩ := h
  exact ⟨not_le.mp ha, not_lt.mp hl, reservations, hi, rfl⟩

lemma record_allocation_change {id : String} {max_active : ℤ}
    (h : record_allocation texts world db org project campaign id limit max_active ref = .ok (result, db')) :
    ∃ scope, _scoped texts org project campaign = .ok scope ∧
      (Change db db' ∧ db.allocations.find scope = none ∧ (db'.allocations.find scope).isSome ∨
        (db.allocations.find scope).isSome ∧ db' = db) := by
  simp only [record_allocation, bind_eq_ok] at h
  obtain ⟨scope, hs, -, -, _, hl, _, ha, -, -, -, -, h⟩ := h
  refine ⟨scope, hs, ?_⟩
  split at h
  next allocations hi =>
    obtain ⟨-, rfl⟩ := h
    refine .inl ⟨?_, (insert_rows hi).2, ?_⟩
    · exact .allocate _ allocations hi rfl rfl (_int_ok.mp hl).1 (_int_ok.mp ha).1
    · exact isSome_of_eq_some (Replaces.insert hi).row
  · simp only [bind_eq_ok, _allocation_ok] at h
    obtain ⟨existing, hf, -, -, -, rfl⟩ := h
    exact .inr ⟨isSome_of_eq_some hf, rfl⟩

def Takes (scope : Scope) (id : String) (request : Request) (o : Operation) : Prop :=
  o.scope = scope ∧ (o.task_id = id ∨ o.idempotency_key = request.idempotency_key)

lemma prepare_change {request : Request}
    (h : prepare texts world db org project campaign task parent fence request amount = .ok (result, db')) :
    ∃ scope id, _scoped texts org project campaign = .ok scope ∧ _uuid texts task = .ok id ∧
      (Change db db' ∧ (∀ o ∈ db.operations.rows, ¬ Takes scope id request o) ∧
          (∃ o ∈ db'.operations.rows, Takes scope id request o) ∨
        (∃ o ∈ db.operations.rows, Takes scope id request o) ∧ db' = db) := by
  simp only [prepare, bind_eq_ok] at h
  obtain ⟨scope, hsc, id, hid, parent, -, -, -, -, -, -, -, a, ha, h⟩ := h
  rw [_allocation_ok] at ha
  refine ⟨scope, id, hsc, hid, ?_⟩
  split at h
  next hf =>
    simp only [bind_eq_ok, demand_eq_ok] at h
    obtain ⟨-, -, attempt, -, -, -, operations, hi, h⟩ := h
    obtain ⟨hac, hl, reservations, hr, rfl⟩ := _reserve_ok h
    obtain rfl := find_key ha
    have hf : ∀ o ∈ db.operations.rows, ¬ Takes a.scope id request o := fun o ho => by
      simpa [Takes] using List.filter_eq_nil_iff.mp hf o ho
    refine .inl ⟨?_, hf, _, (mem_insert hi).mpr (.inr rfl), rfl, .inl rfl⟩
    exact .prepare _ a amount operations reservations ha hi rfl (fun o ho hs ht => hf o ho ⟨hs, .inl ht⟩)
      ⟨hac, hl⟩ hr
  next op hop =>
    simp only [bind_eq_ok] at h
    obtain ⟨-, -, -, -, -, -, -, -, -, rfl⟩ := h
    have hm : op ∈ [op] := List.mem_singleton_self op
    rw [← hop, List.mem_filter] at hm
    exact .inr ⟨⟨op, hm.1, by simpa [Takes] using hm.2⟩, rfl⟩
  · simp at h

lemma record_admission_change
    (h : record_admission texts db org project campaign operation attempt = .ok (result, db')) :
    ∃ op row, db.operations.find operation = some op ∧
      db.reservations.find (operation, op.current_sequence) = some row ∧
      row.developer_attempt_id = attempt ∧
      db' = db.modifyReservation (operation, op.current_sequence) .withAdmission
        key_withAdmission := by
  simp only [record_admission, bind_eq_ok, refuse_eq_ok, not_not, _operation_ok, _current_ok] at h
  obtain ⟨scope, -, a, -, op, ⟨-, hop, -⟩, row, ⟨hr, -⟩, -, hid, -, rfl⟩ := h
  obtain rfl := find_key hop
  exact ⟨op, row, hop, hr, hid, by rw [(key_of_find hr).2]⟩

lemma settle_change {reconciled : Bool}
    (h : settle texts world db org project campaign operation attempt cost ref reconciled = .ok (result, db')) :
    ∃ digits row, attemptDigits operation attempt = some digits ∧
      db.reservations.find (operation, number digits) = some row ∧
      (row.settlement.isSome ∧ db' = db ∨
        ∃ a x, db.allocations.find row.scope = some a ∧ row.settlement = none ∧
          x.cost_microusd ≤ row.reservation_microusd ∧
          db' = (db.modifyReservation (operation, number digits) (.settle x) (key_settle x)).addTo
            row.scope x.cost_microusd (-row.reservation_microusd)) := by
  simp only [settle, bind_eq_ok, demand_eq_ok, _operation_ok, _current_ok, _allocation_ok] at h
  obtain ⟨-, -, -, -, -, -, scope, -, a, ha, op, ⟨-, hop, -⟩, digits, hd, -, -, row, ⟨hr, hs⟩, h⟩ := h
  obtain rfl := find_key hop
  refine ⟨digits, row, hd, hr, ?_⟩
  split at h
  next x hx =>
    simp only [bind_refuse, pure_eq_ok, Prod.mk.injEq] at h
    exact .inl ⟨by rw [hx]; rfl, h.2.2.symm⟩
  rename_i hx
  simp only [bind_refuse] at h
  obtain ⟨hc, -, rfl⟩ := h
  subst hs
  exact .inr ⟨a, ⟨cost, ref, world.now⟩, ha, hx, not_lt.mp hc, rfl⟩

lemma reserve_retry_change
    (h : reserve_retry texts world db org project campaign operation expected amount = .ok (result, db')) :
    ∃ op row, db.operations.find operation = some op ∧
      db.reservations.find (operation, op.current_sequence) = some row ∧
      (row.expected_attempt_id = some expected ∧ db' = db ∨
        row.developer_attempt_id = expected ∧ row.settlement ≠ none ∧
        op.current_sequence + 1 ≤ 99999999 ∧ row.expected_attempt_id ≠ some expected ∧
        ∃ a reservations, db.allocations.find op.scope = some a ∧ Admissible db a amount ∧
          db.reservations.insert (op.advance.reserving op.scope amount (some expected)) = some reservations ∧
          db' = { db with
            operations := db.operations.modify operation advance operation_id_advance
            reservations }.addTo op.scope 0 amount) := by
  simp only [reserve_retry, bind_eq_ok, _operation_ok, _current_ok, _allocation_ok] at h
  obtain ⟨-, -, -, -, -, -, scope, -, a, ha, op, ⟨-, hop, hsc⟩, row, ⟨hr, -⟩, h⟩ := h
  obtain rfl := find_key hop
  subst hsc
  refine ⟨op, row, hop, hr, ?_⟩
  split at h
  next he =>
    simp only [bind_refuse, pure_eq_ok, Prod.mk.injEq] at h
    exact .inl ⟨he, h.2.2.symm⟩
  rename_i he
  simp only [bind_refuse, not_or, not_not] at h
  obtain ⟨⟨hid, hs⟩, h⟩ := h
  simp only [bind_eq_ok, _int_ok] at h
  obtain ⟨-, -, -, ⟨-, hb⟩, h⟩ := h
  obtain ⟨hac, hl, reservations, hi, rfl⟩ := _reserve_ok h
  obtain ha' := find_key ha
  refine .inr ⟨hid, hs, by omega, he, a, reservations, ha, ?_, hi, rfl⟩
  rw [← ha'] at hac
  exact ⟨hac, hl⟩

lemma perform_change (h : perform texts world db call = .ok (result, db')) : Change db db' := by
  cases call with
  | record_allocation =>
    obtain ⟨scope, -, ⟨hc, -⟩ | ⟨-, rfl⟩⟩ := record_allocation_change h
    · exact hc
    · exact .none
  | prepare =>
    obtain ⟨scope, id, -, -, ⟨hc, -⟩ | ⟨-, rfl⟩⟩ := prepare_change h
    · exact hc
    · exact .none
  | record_admission =>
    obtain ⟨op, row, -, hr, -, rfl⟩ := record_admission_change h
    exact .admission _ row hr
  | settle =>
    obtain ⟨digits, row, -, hr, ⟨-, rfl⟩ | ⟨a, x, ha, hx, hcs, rfl⟩⟩ := settle_change h
    · exact .none
    · exact .settle a _ row x ha hr hx hcs
  | reserve_retry =>
    obtain ⟨op, row, hop, hr, ⟨-, rfl⟩ |
      ⟨rfl, hs, hb, -, a, reservations, ha, had, hi, rfl⟩⟩ := reserve_retry_change h
    · exact .none
    · obtain rfl := find_key hop
      exact .retry op a _ row reservations ha hop hr hs hb had hi

end

variable {row : Reservation} {op : Operation} {amount : ℤ}

lemma Linked.named_of_find (h : Linked db) (hr : db.reservations.find (operation, n) = some r) :
    r.developer_attempt_id = attemptId operation n ∧ 1 ≤ n ∧ n ≤ 99999999 ∧
      ∀ id, r.expected_attempt_id = some id → 1 < n ∧ id = attemptId operation (n - 1) := by
  obtain ⟨rfl, rfl⟩ := key_of_find hr
  exact h.named r (mem_of_find hr)

lemma Linked.scope_funded (h : Linked db) (hr : r ∈ db.reservations.rows) :
    (db.allocations.find r.scope).isSome := by
  obtain ⟨o, ho, hs, -⟩ := h.held r hr
  rw [← hs]
  exact h.funded o (mem_of_find ho)

@[simp] lemma isSome_addTo (db : Db) (scope s : Scope) (spent reserved : ℤ) :
    ((db.addTo scope spent reserved).allocations.find s).isSome = (db.allocations.find s).isSome := by
  have hf := find_modify db.allocations scope (.add spent reserved) (scope_add _ _) s
  rw [Db.addTo, hf]
  split <;> simp

lemma accounted_reserve (h : ∀ a ∈ db.allocations.rows, Accounted db.reservations a)
    (ha : db.allocations.find scope = some a) (hs : row.scope = scope) (ho : row.settlement = none)
    (had : Admissible db a row.reservation_microusd) (hi : db.reservations.insert row = some reservations) :
    ∀ x ∈ (db.allocations.modify scope (.add 0 row.reservation_microusd) (scope_add _ _)).rows,
      Accounted reservations x := by
  refine (forall_modify (scope_add 0 _)).mpr fun x hx => ⟨?_, ?_⟩
  · intro hk
    obtain rfl : x = a := mem_unique (find_some.mpr ⟨hx, hk⟩) ha
    exact (h x hx).insert hi (hs.trans hk.symm) ho had.active had.limit
  · intro hk
    exact (h x hx).insert_other hi fun he => hk (he.symm.trans hs)

lemma Linked.modifyReservation (h : Linked db) (hf : ∀ r, (f r).key = r.key)
    (hsm : ∀ r, (f r).scope = r.scope ∧ (f r).developer_attempt_id = r.developer_attempt_id ∧
      (f r).expected_attempt_id = r.expected_attempt_id ∧
      ((f r).settlement = none → r.settlement = none)) :
    Linked (db.modifyReservation k f hf) where
  funded := h.funded
  tasks := h.tasks
  held := (forall_modify hf).mpr fun r hr => by
    refine ⟨fun _ => ?_, fun _ => h.held r hr⟩
    obtain ⟨o, ho, hsc, hle, hl⟩ := h.held r hr
    obtain ⟨hop, hseq⟩ := mk.inj (hf r)
    obtain ⟨hs, -, -, hst⟩ := hsm r
    rw [hop, hseq, hs]
    exact ⟨o, ho, hsc, hle, fun hon => hl (hst hon)⟩
  named := (forall_modify hf).mpr fun r hr => by
    refine ⟨fun _ => ?_, fun _ => h.named r hr⟩
    obtain ⟨hop, hseq⟩ := mk.inj (hf r)
    obtain ⟨-, hid, he, -⟩ := hsm r
    rw [hid, he, hop, hseq]
    exact h.named r hr

lemma Linked.addTo (h : Linked db) (scope : Scope) (spent reserved : ℤ) :
    Linked (db.addTo scope spent reserved) where
  funded o ho := by
    rw [isSome_addTo]
    exact h.funded o ho
  tasks := h.tasks
  held := h.held
  named := h.named

lemma Linked.insertOperation {operations : Table Operation.operation_id} (h : Linked db)
    (hi : db.operations.insert op = some operations) (hf : (db.allocations.find op.scope).isSome)
    (free : ∀ o ∈ db.operations.rows, o.scope = op.scope → o.task_id ≠ op.task_id) :
    Linked { db with operations } where
  funded := (forall_insert hi).mpr ⟨h.funded, hf⟩
  tasks := by
    refine (forall_insert hi).mpr ⟨fun o ho => ?_, ?_⟩
    · exact (forall_insert hi).mpr ⟨h.tasks o ho, fun hs ht => absurd ht (free o ho hs)⟩
    · exact (forall_insert hi).mpr ⟨fun o ho hs ht => absurd ht.symm (free o ho hs.symm), fun _ _ => rfl⟩
  held r hr := by
    obtain ⟨o, ho, hrs⟩ := h.held r hr
    exact ⟨o, find_insert_of_find hi ho, hrs⟩
  named := h.named

lemma Linked.advance (h : Linked db) (found : db.operations.find op.operation_id = some op)
    (hcr : db.reservations.find (op.operation_id, op.current_sequence) = some row) (hst : row.settlement ≠ none) :
    Linked { db with operations := db.operations.modify op.operation_id .advance operation_id_advance } where
  funded := (forall_modify operation_id_advance).mpr fun o ho => ⟨fun _ => h.funded o ho, fun _ => h.funded o ho⟩
  tasks := by
    refine (forall_modify operation_id_advance).mpr fun o ho => ⟨fun hk => ?_, fun hk => ?_⟩ <;>
      refine (forall_modify operation_id_advance).mpr fun o' ho' => ⟨fun hk' hs ht => ?_, fun hk' hs ht => ?_⟩ <;>
      obtain rfl := h.tasks o ho o' ho' hs ht
    · rfl
    · exact absurd hk hk'
    · exact absurd hk' hk
    · rfl
  held r hr := by
    have hfn := find_modify db.operations op.operation_id .advance operation_id_advance r.operation_id
    obtain ⟨o, ho, hs, hle, hl⟩ := h.held r hr
    by_cases hop : r.operation_id = op.operation_id
    · obtain rfl : o = op := mem_unique ho (hop ▸ found)
      refine ⟨o.advance, hfn.trans (by rw [if_pos hop, ho, map_some]), hs, le_succ_of_le hle, fun hon => ?_⟩
      have hk : r.key = (o.operation_id, o.current_sequence) := Prod.ext hop (hl hon)
      obtain rfl := mem_unique (find_some.mpr ⟨hr, hk⟩) hcr
      exact absurd hon hst
    · exact ⟨o, hfn.trans (by rw [if_neg hop, ho]), hs, hle, hl⟩
  named := h.named

lemma Linked.reserving (op : Operation) (previous : Option String) (h : Linked db)
    (found : db.operations.find op.operation_id = some op) (hone : 1 ≤ op.current_sequence)
    (hb : op.current_sequence ≤ 99999999)
    (hp : ∀ id, previous = some id → 1 < op.current_sequence ∧
      id = attemptId op.operation_id (op.current_sequence - 1))
    (hi : db.reservations.insert (op.reserving op.scope amount previous) = some reservations) :
    Linked { db with reservations } where
  funded := h.funded
  tasks := h.tasks
  held := (forall_insert hi).mpr ⟨h.held, op, found, rfl, le_rfl, fun _ => rfl⟩
  named := (forall_insert hi).mpr ⟨h.named, rfl, hone, hb, hp⟩

lemma Sound.change (h : Sound db) (hc : Change db db') : Sound db' := by
  have hl := h.toLinked
  cases hc with
  | none => exact h
  | allocate a allocations hi spent reserved limit hac =>
    refine
      { funded := fun o ho => isSome_find_insert hi (h.funded o ho)
        tasks := h.tasks
        held := h.held
        named := h.named
        accounted := (forall_insert hi).mpr ⟨h.accounted, ?_⟩ }
    refine .of_none (fun r hr he => ?_) reserved spent (by omega) (by omega)
    have hf := h.scope_funded hr
    rw [he, (insert_rows hi).2] at hf
    cases hf
  | prepare op a amount operations reservations hal hi first free had reserved =>
    have hop := (hl.insertOperation hi (isSome_of_eq_some hal) free).reserving op none (Replaces.insert hi).row
      first.ge (by omega) (fun _ => nofun) reserved
    exact { toLinked := hop.addTo _ _ _
            accounted := accounted_reserve h.accounted hal (by rfl) (by rfl) had reserved }
  | retry op a amount row reservations hal found hcr hst hbn had reserved =>
    obtain ⟨hid, hone, -⟩ := h.named_of_find hcr
    have hop := (hl.advance found hcr hst).reserving op.advance _ (find_modify_self operation_id_advance found)
      (succ_pos _) hbn (fun id heq => ⟨lt_succ_of_le hone, (some.inj heq).symm.trans hid⟩) reserved
    exact { toLinked := hop.addTo _ _ _
            accounted := accounted_reserve h.accounted hal (by rfl) (by rfl) had reserved }
  | admission k row found =>
    refine { toLinked := hl.modifyReservation key_withAdmission fun r => ⟨rfl, rfl, rfl, id⟩
             accounted := fun a ha => ?_ }
    exact (h.accounted a ha).modify_same key_withAdmission found rfl rfl fun r _ _ hr => hr
  | settle a k row x hal found hu cost =>
    refine { toLinked := (hl.modifyReservation (key_settle x) fun r => ⟨rfl, rfl, rfl, nofun⟩).addTo _ _ _
             accounted := (forall_modify (scope_add _ _)).mpr fun b hb => ⟨fun hk => ?_, fun hk => ?_⟩ }
    · exact (h.accounted b hb).settle found hk.symm hu cost
    have hne : row.scope ≠ b.scope := fun he => hk he.symm
    refine (h.accounted b hb).modify_same (Reservation.key_settle x) found ?_ ?_
      (by simp [Developer.unsettled, Reservation.settle])
    · exact (reservedIn_of_ne (r := row.settle x) hne).trans (reservedIn_of_ne hne).symm
    · exact (spentIn_of_ne (r := row.settle x) hne).trans (spentIn_of_ne hne).symm

lemma grows_find_modify
    (hf : ∀ r, (f r).key = r.key) (hfl : ∀ r, db.reservations.find k = some r → Follows r (f r))
    (k' : String × ℕ) (r : Reservation) (hr : db.reservations.find k' = some r) :
    ∃ r', (db.reservations.modify k f hf).find k' = some r' ∧ Follows r r' := by
  rw [find_modify, hr]
  split
  next hk =>
    exact ⟨f r, rfl, hfl r (hk ▸ hr)⟩
  · exact ⟨r, rfl, .refl r⟩

lemma grows_find_insert (hi : db.reservations.insert row = some reservations) (k : String × ℕ) (r : Reservation)
    (hr : db.reservations.find k = some r) : ∃ r', reservations.find k = some r' ∧ Follows r r' :=
  ⟨r, find_insert_of_find hi hr, .refl r⟩

lemma Change.grows (hc : Change db db') : Grows db db' := by
  cases hc with
  | none => exact .refl db
  | allocate a allocations hi =>
    exact ⟨fun s => isSome_find_insert hi, (Grows.refl db).operations, (Grows.refl db).reservations⟩
  | prepare op a amount operations reservations ha hi first free had reserved =>
    refine ⟨fun s hs => ?_, fun k o ho => ?_, grows_find_insert reserved⟩
    · rwa [isSome_addTo]
    · exact ⟨o, find_insert_of_find hi ho, rfl, rfl, rfl, le_rfl⟩
  | retry op a amount row reservations ha found hcr hst hb had reserved =>
    refine ⟨fun s hs => ?_, fun k o ho => ?_, grows_find_insert reserved⟩
    · rwa [isSome_addTo]
    have hf := find_modify db.operations op.operation_id advance operation_id_advance k
    by_cases hk : k = op.operation_id
    · rw [if_pos hk, ho] at hf
      exact ⟨o.advance, hf, rfl, rfl, rfl, le_succ _⟩
    · rw [if_neg hk, ho] at hf
      exact ⟨o, hf, rfl, rfl, rfl, le_rfl⟩
  | admission k row found =>
    refine ⟨fun _ => id, (Grows.refl db).operations, ?_⟩
    exact grows_find_modify key_withAdmission fun r _ => ⟨rfl, fun _ => rfl, fun _ => id⟩
  | settle a k row x ha found hu cost =>
    refine ⟨fun s hs => ?_, (Grows.refl db).operations, ?_⟩
    · rwa [isSome_addTo]
    refine grows_find_modify (key_settle x) fun r hr => ⟨rfl, id, fun y hy => ?_⟩
    obtain rfl := mem_unique hr found
    cases hu.symm.trans hy

section

variable (texts : Texts)

def Done (db : Db) : Call → Prop
  | .record_allocation org project campaign _ _ _ _ =>
    ∃ scope, _scoped texts org project campaign = .ok scope ∧ (db.allocations.find scope).isSome
  | .prepare org project campaign task _ _ request _ =>
    ∃ scope id k o, _scoped texts org project campaign = .ok scope ∧ _uuid texts task = .ok id ∧
      db.operations.find k = some o ∧ o.scope = scope ∧
      (o.task_id = id ∨ o.idempotency_key = request.idempotency_key)
  | .record_admission _ _ _ operation attempt =>
    ∃ n r, db.reservations.find (operation, n) = some r ∧ r.developer_attempt_id = attempt ∧ r.admitted = true
  | .settle _ _ _ operation attempt _ _ _ =>
    ∃ digits r, attemptDigits operation attempt = some digits ∧
      db.reservations.find (operation, number digits) = some r ∧ r.settlement.isSome
  | .reserve_retry _ _ _ operation expected _ =>
    ∃ o n, db.operations.find operation = some o ∧ n < o.current_sequence ∧ expected = attemptId operation n

variable {texts}

lemma Done.grows (h : Done texts db call) (hg : Grows db db') : Done texts db' call := by
  cases call with
  | record_allocation =>
    obtain ⟨scope, hsc, hfn⟩ := h
    exact ⟨scope, hsc, hg.allocations scope hfn⟩
  | prepare =>
    obtain ⟨scope, id, k, o, hsc, hid, ho, hs, hm⟩ := h
    obtain ⟨o', ho', hs', ht, hk, -⟩ := hg.operations k o ho
    refine ⟨scope, id, k, o', hsc, hid, ho', hs'.trans hs, ?_⟩
    rwa [ht, hk]
  | record_admission =>
    obtain ⟨n, r, hr, hid, ha⟩ := h
    obtain ⟨r', hr', hf⟩ := hg.reservations _ r hr
    refine ⟨n, r', hr', ?_, hf.admitted ha⟩
    rw [hf.same]
    exact hid
  | settle =>
    obtain ⟨digits, r, hd, hr, hst⟩ := h
    obtain ⟨r', hr', hf⟩ := hg.reservations _ r hr
    obtain ⟨x, hx⟩ := isSome_iff_exists.mp hst
    exact ⟨digits, r', hd, hr', isSome_of_eq_some (hf.settlement x hx)⟩
  | reserve_retry =>
    obtain ⟨o, n, ho, hn, hid⟩ := h
    obtain ⟨o', ho', -, -, -, hle⟩ := hg.operations _ o ho
    exact ⟨o', n, ho', hn.trans_le hle, hid⟩

lemma done_of_perform (hsn : Sound db) (h : perform texts world db call = .ok (result, db')) :
    Done texts db' call := by
  cases call with
  | record_allocation =>
    obtain ⟨scope, hs, ⟨-, -, hf⟩ | ⟨hf, rfl⟩⟩ := record_allocation_change h
    all_goals exact ⟨scope, hs, hf⟩
  | prepare =>
    obtain ⟨scope, id, hs, hid, ⟨-, -, o, ho, ht⟩ | ⟨⟨o, ho, ht⟩, rfl⟩⟩ := prepare_change h
    all_goals exact ⟨scope, id, _, o, hs, hid, find_some.mpr ⟨ho, rfl⟩, ht⟩
  | record_admission =>
    obtain ⟨op, row, hop, hr, hid, rfl⟩ := record_admission_change h
    exact ⟨op.current_sequence, row.withAdmission, find_modify_self key_withAdmission hr, hid, rfl⟩
  | settle =>
    obtain ⟨digits, row, hd, hr, ⟨hst, rfl⟩ | ⟨a, x, -, -, -, rfl⟩⟩ := settle_change h
    · exact ⟨digits, row, hd, hr, hst⟩
    · exact ⟨digits, row.settle x, hd, find_modify_self (key_settle x) hr, rfl⟩
  | reserve_retry =>
    obtain ⟨op, row, hop, hr, ⟨he, rfl⟩ |
      ⟨rfl, -, -, -, a, reservations, -, -, -, rfl⟩⟩ := reserve_retry_change h
    · obtain ⟨-, -, -, hp⟩ := hsn.named_of_find hr
      obtain ⟨hlt, hid⟩ := hp _ he
      exact ⟨op, op.current_sequence - 1, hop, by omega, hid⟩
    · obtain ⟨hid, -⟩ := hsn.named_of_find hr
      exact ⟨op.advance, op.current_sequence, find_modify_self Operation.operation_id_advance hop,
        lt_succ_self _, hid⟩

lemma unchanged_of_done (hsn : Sound db) (hd : Done texts db call)
    (h : perform texts world db call = .ok (result, db')) : db' = db := by
  cases call with
  | record_allocation =>
    obtain ⟨scope, hs, hf⟩ := hd
    obtain ⟨scope', hs', ⟨-, hno, -⟩ | ⟨-, rfl⟩⟩ := record_allocation_change h
    · obtain rfl := ok.inj (hs.symm.trans hs')
      rw [hno] at hf
      cases hf
    · rfl
  | prepare =>
    obtain ⟨scope, id, k, o, hs, hid, ho, ht⟩ := hd
    obtain ⟨scope', id', hs', hid', ⟨-, hfr, -⟩ | ⟨-, rfl⟩⟩ := prepare_change h
    · obtain rfl := ok.inj (hs.symm.trans hs')
      obtain rfl := ok.inj (hid.symm.trans hid')
      exact absurd ht (hfr o (mem_of_find ho))
    · rfl
  | record_admission =>
    obtain ⟨n, r, hr, hid, ha⟩ := hd
    obtain ⟨op, row, hop, hrow, hid', rfl⟩ := record_admission_change h
    obtain ⟨hnm, -, hle, -⟩ := hsn.named_of_find hr
    obtain ⟨hnm', -, hle', -⟩ := hsn.named_of_find hrow
    obtain rfl := attemptId_injective hle hle' (by rw [← hnm, ← hnm', hid, hid'])
    rw [Db.modifyReservation, modify_eq_self]
    intro x hx
    obtain rfl := mem_unique hx hr
    rw [withAdmission, ← ha]
  | settle =>
    obtain ⟨digits, r, hdg, hr, hst⟩ := hd
    obtain ⟨digits', row, hdg', hrow, ⟨-, rfl⟩ | ⟨a, x, -, hon, -, rfl⟩⟩ := settle_change h
    · rfl
    obtain rfl := mem_unique hdg hdg'
    obtain rfl := mem_unique hr hrow
    rw [hon] at hst
    cases hst
  | reserve_retry =>
    obtain ⟨o, n, ho, hn, rfl⟩ := hd
    obtain ⟨op, row, hop, hrow, ⟨-, rfl⟩ | ⟨hid, -⟩⟩ := reserve_retry_change h
    · rfl
    obtain rfl := mem_unique ho hop
    obtain ⟨hnm, -, hle, -⟩ := hsn.named_of_find hrow
    exact absurd (attemptId_injective hle (hn.le.trans hle) (hnm.symm.trans hid)) hn.ne'

end

variable (texts : Texts)

lemma step_cases (db : Db) (e : Call × World) :
    (∃ failure, step texts db e = (.error failure, db)) ∨
    ∃ result db', perform texts e.2 db e.1 = .ok (result, db') ∧ step texts db e = (.ok result, db') := by
  unfold step
  cases h : perform texts e.2 db e.1 with
  | error failure => exact .inl ⟨failure, rfl⟩
  | ok out => exact .inr ⟨out.1, out.2, rfl, rfl⟩

lemma step_change (db : Db) (e : Call × World) : Change db (step texts db e).2 := by
  obtain ⟨failure, h⟩ | ⟨result, db', hp, h⟩ := step_cases texts db e
  · rw [h]
    exact .none
  · rw [h]
    exact perform_change hp

lemma sound_empty : Sound .empty where
  funded o ho := by cases ho
  tasks o ho := by cases ho
  held r hr := by cases hr
  named r hr := by cases hr
  accounted a ha := by cases ha

lemma sound_run (es : List (Call × World)) : Sound (after (step texts) .empty es) :=
  invariant sound_empty (fun db e h => h.change (step_change texts db e)) es

lemma grows_run (db : Db) (es : List (Call × World)) : Grows db (after (step texts) db es) :=
  related (I := fun _ => True) Grows.refl (fun _ _ _ => Grows.trans) (fun _ _ _ => trivial)
    (fun db e _ => (step_change texts db e).grows) trivial es

structure Balanced (db : Db) : Prop where
  reserved : ∀ a ∈ db.allocations.rows, a.reserved_microusd = db.reservations.total (reservedIn a.scope)
  spent : ∀ a ∈ db.allocations.rows, a.spent_microusd = db.reservations.total (spentIn a.scope)
  within : ∀ a ∈ db.allocations.rows, a.spent_microusd + a.reserved_microusd ≤ a.limit_microusd
  active : ∀ a ∈ db.allocations.rows, (db.reservations.rows.countP (unsettled a.scope) : ℤ) ≤ a.max_active
  one_operation : ∀ o ∈ db.operations.rows, ∀ o' ∈ db.operations.rows,
    o.scope = o'.scope → o.task_id = o'.task_id → o = o'
  one_unsettled : ∀ r ∈ db.reservations.rows, ∀ r' ∈ db.reservations.rows,
    r.operation_id = r'.operation_id → r.settlement = none → r'.settlement = none → r = r'
  latest : ∀ r ∈ db.reservations.rows, ∀ r' ∈ db.reservations.rows,
    r.operation_id = r'.operation_id → r.settlement = none → r'.sequence ≤ r.sequence

lemma Sound.balanced (h : Sound db) : Balanced db where
  reserved a ha := (h.accounted a ha).reserved
  spent a ha := (h.accounted a ha).spent
  within a ha := (h.accounted a ha).within
  active a ha := (h.accounted a ha).active
  one_operation := h.tasks
  one_unsettled := by
    intro r hr r' hr' hop hon hon'
    obtain ⟨o, ho, -, -, hl⟩ := h.held r hr
    obtain ⟨o', ho', -, -, hl'⟩ := h.held r' hr'
    rw [← hop] at ho'
    obtain rfl := mem_unique ho ho'
    exact db.reservations.eq_of_key hr hr' (Prod.ext hop ((hl hon).trans (hl' hon').symm))
  latest := by
    intro r hr r' hr' hop hon
    obtain ⟨o, ho, -, -, hl⟩ := h.held r hr
    obtain ⟨o', ho', -, hle, -⟩ := h.held r' hr'
    rw [← hop] at ho'
    obtain rfl := mem_unique ho ho'
    rwa [hl hon]

theorem developer_budget_kept :
    (∀ es, Balanced (after (step texts) .empty es)) ∧
    (∀ es fs r, r ∈ (after (step texts) .empty es).reservations.rows → r.settlement.isSome →
      ∃ r' ∈ (after (step texts) .empty (es ++ fs)).reservations.rows, r' = r ∨ r' = r.withAdmission) ∧
    ∀ es fs call world world' result, (step texts (after (step texts) .empty es) (call, world)).1 =
        .ok result →
      (step texts (after (step texts) .empty (es ++ (call, world) :: fs)) (call, world')).2 =
        after (step texts) .empty (es ++ (call, world) :: fs) := by
  refine ⟨fun es => (sound_run texts es).balanced, ?_, ?_⟩
  · intro es fs r hr hst
    obtain ⟨x, hx⟩ := isSome_iff_exists.mp hst
    obtain ⟨r', hr', hf⟩ := (grows_run texts (after (step texts) .empty es) fs).reservations r.key r
      (find_some.mpr ⟨hr, rfl⟩)
    rw [← after_append] at hr'
    refine ⟨r', mem_of_find hr', ?_⟩
    have hs := hf.same
    rw [hf.settlement x hx, ← hx] at hs
    cases ha : r.admitted with
    | true =>
      left
      rw [hs, hf.admitted ha, ← ha]
    | false =>
      cases ha' : r'.admitted with
      | false =>
        left
        rw [hs, ha', ← ha]
      | true =>
        right
        rw [hs, ha']
        rfl
  · intro es fs call world world' result hok
    have hd : Done texts (after (step texts) .empty (es ++ [(call, world)])) call := by
      obtain ⟨failure, h⟩ | ⟨result', db', hp, h⟩ :=
        step_cases texts (after (step texts) .empty es) (call, world)
      · rw [h] at hok
        cases hok
      · rw [after_concat, h]
        exact done_of_perform (sound_run texts es) hp
    have hrun : es ++ (call, world) :: fs = es ++ [(call, world)] ++ fs := by simp
    rw [hrun]
    have hl : Done texts (after (step texts) .empty (es ++ [(call, world)] ++ fs)) call := by
      rw [after_append]
      exact hd.grows (grows_run texts _ fs)
    obtain ⟨failure, h⟩ | ⟨result', db', hp, h⟩ :=
      step_cases texts (after (step texts) .empty (es ++ [(call, world)] ++ fs)) (call, world')
    · rw [h]
    · rw [h]
      exact unchanged_of_done (sound_run texts _) hl hp

def plainTexts : Texts where
  uuid s := if s.length = 36 ∧ isHex 32 (ofList (s.toList.filter (· ≠ '-'))) then some s else none
  sha256 _ := ofList (List.replicate 64 '0')
  encodedLength _ := 0

def plainId (n : ℕ) : String := "00000000-0000-4000-8000-00000000000" ++ toString n

def object : Ref := ⟨"bucket", "key", "1", ofList (List.replicate 64 'a')⟩

def claimedParent : World where
  campaign_status _ := some "running"
  project_active _ := true
  remote_attempt _ _ := some ⟨plainId 4, "claimed", 1, "active", false, 1⟩
  now := 0

def submission : Request :=
  ⟨plainId 1, plainId 2, plainId 3, plainId 4, plainId 5, 1, "repository",
    ofList (List.replicate 40 'c'), object, "job", "environment", "key"⟩

def submitted : String := plainTexts.sha256 []

def settledFirst : List (Call × World) :=
  [(.record_allocation (plainId 1) (plainId 2) (plainId 3) "allocation" 10 1 object, claimedParent),
    (.prepare (plainId 1) (plainId 2) (plainId 3) (plainId 4) (plainId 5) 1 submission 5, claimedParent),
    (.settle (plainId 1) (plainId 2) (plainId 3) submitted (attemptId submitted 1) 3 object true, claimedParent)]

theorem settled_reservation_admitted :
    (after (step plainTexts) .empty settledFirst).reservations.rows.map
      (fun r => (r.settlement.isSome, r.admitted)) = [(true, false)] ∧
    (after (step plainTexts) .empty (settledFirst ++
      [(.record_admission (plainId 1) (plainId 2) (plainId 3) submitted (attemptId submitted 1),
        claimedParent)])).reservations.rows.map
      (fun r => (r.settlement.isSome, r.admitted)) = [(true, true)] := by
  decide +kernel

theorem developer_budget_kept_settled_first :
    Balanced (after (step plainTexts) .empty settledFirst) ∧
    (after (step plainTexts) .empty settledFirst).reservations.rows.countP (fun r => r.settlement.isSome) = 1 ∧
    ∀ r ∈ (after (step plainTexts) .empty settledFirst).reservations.rows, r.settlement.isSome →
      ∃ r' ∈ (after (step plainTexts) .empty (settledFirst ++ settledFirst)).reservations.rows,
        r' = r ∨ r' = r.withAdmission :=
  ⟨(developer_budget_kept plainTexts).1 settledFirst, by decide +kernel, fun r hr hs =>
    (developer_budget_kept plainTexts).2.1 settledFirst settledFirst r hr hs⟩

end LeafWeb.Campaign.Developer
