import LeafWeb.Lab.RunStore
import LeafWeb.Lib.Superseded

namespace LeafWeb.Lab

open Lib List Nat EventRow

variable {events events' : Events} {run : String × String} {now : ℤ} {e : EventRow}

lemma mem_eventsOf : e ∈ eventsOf events run ↔ e ∈ events.rows ∧ e.run = run := by
  simp [eventsOf]

lemma eventsOf_seq_nodup (events : Events) (run : String × String) : ((eventsOf events run).map seq).Nodup := by
  refine Nodup.map_on ?_ (events.distinct.of_map.filter _)
  intro a ha b hb hs
  obtain ⟨ha, har⟩ := mem_eventsOf.mp ha
  obtain ⟨hb, hbr⟩ := mem_eventsOf.mp hb
  exact events.eq_of_key ha hb (Prod.ext (har.trans hbr.symm) hs)

variable {x : Event}

lemma eventsOf_insertEvent {seq : ℕ} (h : insertEvent events run seq x now = .ok events') :
    eventsOf events' run = eventsOf events run ++ [⟨run, seq, x.block, x.kind, x.payload, now⟩] ∧
      ∀ k, k ≠ run → eventsOf events' k = eventsOf events k := by
  obtain ⟨hr, -⟩ := Table.insert_rows (demand_eq_ok.mp h)
  simp only [eventsOf, hr]
  refine ⟨by simp, ?_⟩
  intro k hk
  simp [hk.symm]

lemma eventsOf_deleteWhere (p : EventRow → Bool) (k : String × String) :
    eventsOf (events.deleteWhere p) k = (eventsOf events k).filter fun e => !p e := by
  simp [eventsOf, Table.deleteWhere, Bool.and_comm]

variable {n : ℕ} {cutoff : EventRow}

lemma oldestEvents_strict (events : Events) (run : String × String) (n : ℕ) :
    (oldestEvents events run n).Pairwise fun a b => a.seq < b.seq :=
  (sortOn_strict _ (eventsOf_seq_nodup events run)).sublist (take_sublist _ _)

lemma mem_oldestEvents (hc : (oldestEvents events run n).getLast? = some cutoff) :
    e ∈ oldestEvents events run n ↔ e ∈ eventsOf events run ∧ e.seq ≤ cutoff.seq := by
  rw [oldestEvents, mem_take_iff (sortOn_strict _ (eventsOf_seq_nodup events run)) hc, mem_sortOn]

lemma removable_iff (he : e ∈ oldestEvents events run n) :
    removable (oldestEvents events run n) e ↔
      Superseded seq block (oldestEvents events run n) e := by
  unfold removable latest
  rw [Bool.and_eq_true]
  constructor
  · rintro ⟨hb, hne⟩
    exact (superseded_iff_getLast (oldestEvents_strict events run n) he hb).mpr (of_decide_eq_true hne)
  · intro h
    exact ⟨h.1, decide_eq_true ((superseded_iff_getLast (oldestEvents_strict events run n) he h.1).mp h)⟩

lemma mem_greatest {es : List EventRow} (hes : (es.map seq).Nodup) (he : e ∈ es) :
    e.seq ∈ greatest es ↔ ∀ e' ∈ es, e'.block = e.block → e'.seq ≤ e.seq := by
  simp only [greatest, mem_map, mem_filter, all_eq_true, Bool.or_eq_true,
    Bool.not_eq_true', decide_eq_false_iff_not, decide_eq_true_eq, ← imp_iff_not_or]
  constructor
  · rintro ⟨a, ⟨ha, hm⟩, hs⟩
    rw [← inj_on_of_nodup_map hes ha he hs]
    exact hm
  · intro hm
    exact ⟨e, ⟨he, hm⟩, rfl⟩

section

variable (hc : (oldestEvents events run n).getLast? = some cutoff)
include hc

lemma deletable_iff (he : e ∈ eventsOf events run) :
    deletable events run cutoff.seq e ↔ e ∈ oldestEvents events run n ∧
      Superseded seq block (oldestEvents events run n) e := by
  have hm : ∀ x, x ∈ blockEvents events run cutoff.seq ↔ x ∈ oldestEvents events run n ∧ x.block.isSome := by
    intro x
    simp [blockEvents, mem_oldestEvents hc, and_assoc]
  have hn : ((blockEvents events run cutoff.seq).map seq).Nodup :=
    (filter_sublist.map _).nodup (eventsOf_seq_nodup events run)
  have hold : e ∈ oldestEvents events run n ↔ e.seq ≤ cutoff.seq := by
    rw [mem_oldestEvents hc, and_iff_right he]
  simp only [deletable, (mem_eventsOf.mp he).2, decide_true, Bool.true_and, Bool.and_eq_true,
    decide_eq_true_eq, Bool.not_eq_true', contains_eq_mem, decide_eq_false_iff_not, hold,
    and_assoc]
  refine and_congr_right fun hle => and_congr_right fun hb => ?_
  rw [mem_greatest hn ((hm e).mpr ⟨hold.mpr hle, hb⟩)]
  push Not
  constructor
  · rintro ⟨e', he', hs, hlt⟩
    exact ⟨e', ((hm e').mp he').1, hs, hlt⟩
  · rintro ⟨e', he', hs, hlt⟩
    exact ⟨e', (hm e').mpr ⟨he', hs ▸ hb⟩, hs, hlt⟩

lemma length_deletable :
    ((eventsOf events run).filter (deletable events run cutoff.seq)).length =
      ((oldestEvents events run n).filter (removable (oldestEvents events run n))).length := by
  have hdr : ((sortOn seq (eventsOf events run)).drop n).filter (deletable events run cutoff.seq) = [] := by
    rw [filter_eq_nil_iff]
    intro e he hd
    have hin : e ∈ eventsOf events run := mem_sortOn.mp (mem_of_mem_drop he)
    have hs := sortOn_strict seq (eventsOf_seq_nodup events run)
    rw [← take_append_drop n (sortOn _ _), pairwise_append] at hs
    exact lt_irrefl _ (hs.2.2 e ((deletable_iff hc hin).mp hd).1 e he)
  have ht : ∀ e ∈ oldestEvents events run n, deletable events run cutoff.seq e =
      removable (oldestEvents events run n) e := by
    intro e he
    have hin := ((mem_oldestEvents hc).mp he).1
    rw [Bool.eq_iff_iff, deletable_iff hc hin, removable_iff he, and_iff_right he]
  rw [← ((sortOn_perm seq (eventsOf events run)).filter _).length_eq,
    ← take_append_drop n (sortOn _ _), filter_append, hdr, append_nil]
  exact congrArg length (filter_congr ht)

end

variable {l l' l'' kept : Log}

structure Log.Fits (run : String × String) (l : Log) : Prop where
  counted : l.count = (eventsOf l.events run).length
  below : ∀ e ∈ eventsOf l.events run, e.seq < l.seq

structure Log.Extends (run : String × String) (l l' : Log) : Prop where
  others : ∀ k, k ≠ run → eventsOf l'.events k = eventsOf l.events k
  seq : l.seq ≤ l'.seq
  old : ∀ e ∈ eventsOf l'.events run, e.seq < l.seq → e ∈ eventsOf l.events run
  kept : ∀ e ∈ eventsOf l.events run, e ∈ eventsOf l'.events run ∨
    Superseded EventRow.seq EventRow.block (eventsOf l'.events run) e

lemma Log.Extends.refl (run : String × String) (l : Log) : l.Extends run l :=
  ⟨fun _ _ => rfl, le_rfl, fun _ he _ => he, fun _ he => .inl he⟩

lemma Log.Extends.trans (h : l.Extends run l') (h' : l'.Extends run l'') : l.Extends run l'' where
  others k hk := (h'.others k hk).trans (h.others k hk)
  seq := h.seq.trans h'.seq
  old e he hlt := h.old e (h'.old e he (hlt.trans_le h.seq)) hlt
  kept e he := by
    rcases h.kept e he with he | ⟨hbl, b, hb, hs, hlt⟩
    · exact h'.kept e he
    right
    rcases h'.kept b hb with hb | ⟨-, c, hc, hs', hlt'⟩
    · exact ⟨hbl, b, hb, hs, hlt⟩
    · exact ⟨hbl, c, hc, hs'.trans hs, hlt.trans hlt'⟩

lemma insertEvent_extends (l : Log) (h : insertEvent l.events run l.seq x now = .ok events) :
    l.Extends run ⟨events, l.seq + 1, l.count + 1⟩ ∧
      (l.Fits run → Log.Fits run ⟨events, l.seq + 1, l.count + 1⟩) := by
  obtain ⟨hr, ho⟩ := eventsOf_insertEvent h
  have hm : ∀ e, e ∈ eventsOf events run ↔ e ∈ eventsOf l.events run ∨
      e = ⟨run, l.seq, x.block, x.kind, x.payload, now⟩ := by
    simp [hr]
  refine ⟨⟨ho, le_succ _, ?_, ?_⟩, fun hl => ⟨by simp [hr, hl.counted], ?_⟩⟩
  · intro e he hlt
    refine ((hm e).mp he).resolve_right ?_
    rintro rfl
    exact lt_irrefl _ hlt
  · intro e he
    exact .inl ((hm e).mpr (.inl he))
  · intro e he
    rcases (hm e).mp he with he | rfl
    · exact (hl.below e he).trans (lt_succ_self _)
    · exact lt_succ_self _

lemma deleteWhere_extends (hc : (oldestEvents l.events run n).getLast? = some cutoff)
    (hkp : kept = ⟨l.events.deleteWhere (deletable l.events run cutoff.seq), l.seq,
      l.count - ((oldestEvents l.events run n).filter (removable (oldestEvents l.events run n))).length⟩) :
    l.Extends run kept ∧ (l.Fits run → kept.Fits run) := by
  subst hkp
  have hr := @eventsOf_deleteWhere l.events (deletable l.events run cutoff.seq) run
  have hm : ∀ e, e ∈ eventsOf (l.events.deleteWhere (deletable l.events run cutoff.seq)) run ↔
      e ∈ eventsOf l.events run ∧ ¬deletable l.events run cutoff.seq e := by
    simp [hr]
  refine ⟨⟨?_, le_rfl, ?_, ?_⟩, fun hl => ⟨?_, ?_⟩⟩
  · intro k hk
    rw [eventsOf_deleteWhere, filter_eq_self]
    intro e he
    simp [deletable, (mem_eventsOf.mp he).2, hk]
  · intro e he _
    exact ((hm e).mp he).1
  · intro e he
    by_cases hd : deletable l.events run cutoff.seq e
    · right
      obtain ⟨-, hs⟩ := (deletable_iff hc he).mp hd
      obtain ⟨b, hb, hsm, hlt, hls⟩ := hs.exists_last (oldestEvents_strict l.events run n)
      have hb' := ((mem_oldestEvents hc).mp hb).1
      refine ⟨hs.1, b, (hm b).mpr ⟨hb', ?_⟩, hsm, hlt⟩
      exact fun h => hls ((deletable_iff hc hb').mp h).2
    · exact .inl ((hm e).mpr ⟨he, hd⟩)
  · have hsp := length_eq_length_filter_add (l := eventsOf l.events run) (deletable l.events run cutoff.seq)
    rw [hr, ← length_deletable hc, hl.counted, hsp, Nat.add_sub_cancel_left]
  · intro e he
    exact hl.below e ((hm e).mp he).1

lemma coalesce_extends (h : coalesce run l now = .ok l') : l.Extends run l' ∧ (l.Fits run → l'.Fits run) := by
  simp only [coalesce, bind_eq_ok, demand_eq_ok, pure_eq_ok] at h
  obtain ⟨-, -, cutoff, hc, events, hi, rfl⟩ := h
  let kept : Log := ⟨l.events.deleteWhere (deletable l.events run cutoff.seq), l.seq, l.count -
    ((oldestEvents l.events run (l.count / 2)).filter
      (removable (oldestEvents l.events run (l.count / 2)))).length⟩
  obtain ⟨he, hf⟩ := deleteWhere_extends hc (rfl : kept = _)
  obtain ⟨he', hf'⟩ := insertEvent_extends kept hi
  exact ⟨he.trans he', fun hl => hf' (hf hl)⟩

lemma logEvent_extends (h : logEvent run now l x = .ok l') :
    l.Extends run l' ∧ (l.Fits run → l'.Fits run) ∧ l'.count ≤ maxEvents := by
  simp only [logEvent, bind_eq_ok] at h
  obtain ⟨events, hi, h⟩ := h
  obtain ⟨he, hf⟩ := insertEvent_extends l hi
  split_ifs at h with hfew
  · cases h
    exact ⟨he, hf, hfew.le⟩
  simp only [bind_eq_ok, refuse_eq_ok, pure_eq_ok, exists_const] at h
  obtain ⟨l'', hc, hcap, rfl⟩ := h
  obtain ⟨he', hf'⟩ := coalesce_extends hc
  exact ⟨he.trans he', fun hl => hf' (hf hl), not_lt.mp hcap⟩

lemma foldlM_logEvent_extends {xs : List Event} (h : xs.foldlM (logEvent run now) l = .ok l') :
    l.Extends run l' ∧ (l.Fits run → l'.Fits run) ∧ (l.count ≤ maxEvents → l'.count ≤ maxEvents) := by
  induction xs generalizing l with
  | nil =>
    rw [foldlM_nil, pure_eq_ok] at h
    exact h ▸ ⟨.refl run l, id, id⟩
  | cons x xs ih =>
    rw [foldlM_cons, bind_eq_ok] at h
    obtain ⟨l₁, hfr, hr⟩ := h
    obtain ⟨he, hf, hcap₁⟩ := logEvent_extends hfr
    obtain ⟨he', hf', hcap'⟩ := ih hr
    exact ⟨he.trans he', fun hl => hf' (hf hl), fun _ => hcap' hcap₁⟩

end LeafWeb.Lab
