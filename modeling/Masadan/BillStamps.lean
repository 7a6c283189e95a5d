import Masadan.Handlers

/-!
# A pending request and its time

A customer asks for the bill, and the visit notes that it is asked for and since when. The
customer's view of the bill goes by the time, and the desk by the status, so the two have to go
together: the time is there while the request is pending, and only then.

Of the operations that write the status, the sweep of abandoned visits leaves the time as it
is. A party that asks for the bill and leaves is swept after hours, and its closed visit keeps
a time (`stamps_paired_fails`). A sweep that finds no request pending does no harm, and nothing
else does, so the two go together exactly in the runs whose sweeps all are like that
(`stamps_paired`).
-/

namespace Masadan

/-! ## One call after another -/

/-- The operations that write visits. -/
inductive VisitCall where
  | openOrJoinVisit (tableId venueId : Id)
  | requestBill (visitId venueId : Id)
  | clearBillRequest (visitId venueId : Id)
  | settleVisit (visitId venueId : Id) (input : SettleInput)
  | closeAbandonedVisits

/-- What a caller that ignores the answer runs. -/
def VisitCall.prog : VisitCall → Api Unit
  | .openOrJoinVisit tableId venueId => (fun _ => ()) <$> Masadan.openOrJoinVisit tableId venueId
  | .requestBill visitId venueId => (fun _ => ()) <$> Masadan.requestBill visitId venueId
  | .clearBillRequest visitId venueId => (fun _ => ()) <$> Masadan.clearBillRequest visitId venueId
  | .settleVisit visitId venueId input =>
    (fun _ => ()) <$> Masadan.settleVisit visitId venueId input
  | .closeAbandonedVisits => (fun _ => ()) <$> Masadan.closeAbandonedVisits

/-- **One call**, at a time. -/
def World.visitCall (w : World) (s : Time × VisitCall) : World :=
  World.after { w with now := s.1 } s.2.prog

/-- Calls, one after another. -/
def World.visitCalls (w : World) (trace : List (Time × VisitCall)) : World :=
  trace.foldl World.visitCall w

theorem visitCalls_append (w : World) (trace : List (Time × VisitCall)) (s : Time × VisitCall) :
    w.visitCalls (trace ++ [s]) = (w.visitCalls trace).visitCall s := by
  unfold World.visitCalls
  rw [List.foldl_append, List.foldl_cons, List.foldl_nil]

/-! ## The pair -/

/-- The request is pending and has a time, or neither. -/
def TableVisit.paired (v : TableVisit) : Prop :=
  v.billRequestedAt ≠ none ↔ v.status = .bill_requested

instance (v : TableVisit) : Decidable v.paired := inferInstanceAs (Decidable (_ ↔ _))

/-- **A pending request and its time go together**, in every visit. -/
def StampsPaired (w : World) : Prop := ∀ id v, w.tableVisits.get? id = some v → v.paired

/-- **Asking again changes nothing** of a visit that has a time, however often it is done. -/
def StampsKept (w : World) : Prop :=
  ∀ (taps : List (Time × Id × Id)) id v, w.tableVisits.get? id = some v → v.billRequestedAt ≠ none →
    (w.visitCalls (taps.map (fun tap => (tap.1, .requestBill tap.2.1 tap.2.2)))).tableVisits.get? id
      = some v

theorem StampsPaired.congr {w w' : World} (h : StampsPaired w)
    (hv : w'.tableVisits = w.tableVisits) : StampsPaired w' :=
  fun id v hid => h id v (hv ▸ hid)

/-- A write of visits that keeps the pair. -/
def KeepsPair (data : Time → TableVisit → TableVisit) : Prop :=
  ∀ now v, v.paired → (data now v).paired

theorem StampsPaired.visitData {c : Choice} {op : Call} {w : World}
    (hop : op.VisitData KeepsPair KeepsPair) (h : StampsPaired w) :
    StampsPaired (World.exec c op w).1 := by
  rcases visitData_cases hop with ⟨id, data, rfl, hdata⟩
    | ⟨id, data, orderIds, provider, sessionIds, rfl, hdata⟩ | hop
  · show StampsPaired (w.tableVisitUpdate id data).1
    unfold World.tableVisitUpdate
    split
    · exact h
    · intro k v' hk
      rw [Rows.get?_updateAt] at hk
      obtain ⟨v, hv, rfl⟩ := Option.map_eq_some_iff.mp hk
      split
      · exact hdata _ _ (h k v hv)
      · exact h k v hv
  · rcases settleTransaction_cases (Prod.eta (w.settleTransaction id data orderIds provider
      sessionIds)).symm with ⟨heq, _⟩ | ⟨_, _, _, _, heq⟩
    · show StampsPaired (w.settleTransaction id data orderIds provider sessionIds).1
      rw [heq]
      exact h
    · show StampsPaired (w.settleTransaction id data orderIds provider sessionIds).1
      rw [heq]
      intro k v' hk
      rw [Rows.get?_update] at hk
      obtain ⟨v, hv, rfl⟩ := Option.map_eq_some_iff.mp hk
      split
      · exact hdata _ _ (h k v hv)
      · exact h k v hv
  · exact h.congr (exec_harmless hop w).tableVisits

theorem StampsPaired.joinWork {c : Choice} {op : Call} {w : World} (hop : op.JoinWork)
    (h : StampsPaired w) : StampsPaired (World.exec c op w).1 := by
  cases op with
  | query q => exact h
  | tableVisitCreate tableId venueId =>
    intro id v hid
    have hget : (w.tableVisits.create _).get? id = some v := hid
    rw [Rows.get?_create] at hget
    split at hget
    · cases hget
      exact ⟨fun hnone => absurd rfl hnone, fun hstatus => by cases hstatus⟩
    · exact h id v hget
  | tableVisitDelete visitId =>
    show StampsPaired (w.tableVisitDelete visitId).1
    unfold World.tableVisitDelete
    split
    · exact h
    · intro id v hid
      have hget : (w.tableVisits.erase _).get? id = some v := hid
      rw [Rows.get?_erase] at hget
      exact h id v (Option.filter_eq_some_iff.mp hget).1
  | _ => exact hop.elim

/-- A program whose calls keep the pair keeps it. -/
theorem StampsPaired.alone {α : Type} {A : Call → Prop} {B : α → Prop} {p : Api α} {w : World}
    (hp : p.Calls A B)
    (hA : ∀ op w, A op → StampsPaired w → StampsPaired (World.exec plain op w).1)
    (h : StampsPaired w) : Alone (fun w' _ => StampsPaired w') p w :=
  Prog.alone_of_calls (R := fun w w' => StampsPaired w → StampsPaired w') hp (fun _ h => h)
    (fun _ _ _ h h' hw => h' (h hw)) hA w h

/-! ## The sweep -/

/-- An update of a visit that is there. -/
theorem exec_visitUpdate {w : World} {id : Id} {v : TableVisit}
    {data : Time → TableVisit → TableVisit} (h : w.tableVisits.get? id = some v) :
    World.exec plain (.tableVisitUpdate id data) w
      = ({ w with tableVisits := w.tableVisits.updateAt id (data w.now) }, .ok ()) := by
  show w.tableVisitUpdate id data = _
  unfold World.tableVisitUpdate
  rw [h]

/-- What the pair is made of. -/
def TableVisit.stamp (v : TableVisit) : Option Time × VisitStatus := (v.billRequestedAt, v.status)

/-- **The sweep closes the visits it found**, and leaves the times of requests. -/
theorem closeEach_alone (visits : List (Id × TableVisit)) (w : World)
    (hfound : ∀ v ∈ visits, (w.tableVisits.get? v.1).isSome) :
    Alone (fun w' _ => ∀ id, (w'.tableVisits.get? id).map TableVisit.stamp
      = (w.tableVisits.get? id).map (fun v =>
          (v.billRequestedAt, if id ∈ visits.map Prod.fst then .closed else v.status)))
      (closeEach visits) w := by
  induction visits generalizing w with
  | nil => exact fun id => rfl
  | cons visit rest ih =>
    unfold closeEach
    refine alone_query (alone_write (fun w₁ x hx => ?_))
    obtain ⟨v₀, hv₀⟩ := Option.isSome_iff_exists.mp (hfound visit List.mem_cons_self)
    rw [exec_visitUpdate hv₀] at hx
    cases hx
    refine alone_write (fun w₂ x₂ hx₂ => ?_)
    cases hx₂
    -- nothing but the visit was written
    have hrow : ∀ id, (w.tableVisits.updateAt visit.1 _).get? id = _ :=
      Rows.get?_updateAt w.tableVisits visit.1
        (abandon (((w.buildBill visit.1).map (fun b => b.totalKurus)).getD 0) w.now)
    refine Prog.alone_mono (ih _ (fun v hv => ?_)) (fun w' _ hw' id => (hw' id).trans ?_)
    · show ((w.tableVisits.updateAt visit.1 _).get? v.1).isSome = true
      rw [hrow, Option.isSome_map]
      exact hfound v (List.mem_cons_of_mem _ hv)
    · show ((w.tableVisits.updateAt visit.1 _).get? id).map _ = _
      rw [hrow, Option.map_map]
      refine congrArg (fun f => Option.map f (w.tableVisits.get? id)) (funext fun v => ?_)
      rw [Function.comp_apply, List.map_cons]
      by_cases hid : id = visit.1
      · have hmem : id ∈ visit.1 :: rest.map Prod.fst := List.mem_cons.mpr (.inl hid)
        rw [if_pos hid, if_pos hmem]
        show (v.billRequestedAt, if id ∈ rest.map Prod.fst then VisitStatus.closed else .closed) = _
        rw [ite_self]
      · rw [if_neg hid]
        simp only [List.mem_cons, hid, false_or]

theorem get?_of_stale {w : World} {t : Time} {v : Id × TableVisit}
    (h : v ∈ ({ w with now := t } : World).staleVisits) : w.tableVisits.get? v.1 = some v.2 := by
  unfold World.staleVisits at h
  exact (Rows.mem_filter.mp h).1

/-- What is left of a visit after a sweep. -/
theorem sweep_stamp (w : World) (t : Time) (id : Id) :
    ((w.visitCall (t, .closeAbandonedVisits)).tableVisits.get? id).map TableVisit.stamp
      = (w.tableVisits.get? id).map (fun v => (v.billRequestedAt,
          if id ∈ ({ w with now := t } : World).staleVisits.map Prod.fst then .closed
          else v.status)) := by
  suffices h : Alone (fun w' _ => ∀ id, (w'.tableVisits.get? id).map TableVisit.stamp
      = (w.tableVisits.get? id).map (fun v => (v.billRequestedAt,
          if id ∈ ({ w with now := t } : World).staleVisits.map Prod.fst then .closed
          else v.status))) (VisitCall.prog .closeAbandonedVisits) { w with now := t } from h id
  refine Prog.alone_map ?_
  unfold Masadan.closeAbandonedVisits
  refine alone_query (Prog.alone_bind (Prog.alone_mono (closeEach_alone _ _ (fun v hv => ?_))
    (fun w' x hw' => ?_)))
  · exact Option.isSome_iff_exists.mpr ⟨v.2, get?_of_stale hv⟩
  · cases x with
    | error e => exact hw'
    | ok u => exact hw'

/-- No visit with a pending request is found abandoned. -/
def World.sweepsNone (w : World) (t : Time) : Prop :=
  ∀ v ∈ ({ w with now := t } : World).staleVisits, v.2.status ≠ .bill_requested

/-- **A sweep keeps the pair exactly when it finds no request pending.** -/
theorem sweep_paired_iff {w : World} (h : StampsPaired w) (t : Time) :
    StampsPaired (w.visitCall (t, .closeAbandonedVisits)) ↔ w.sweepsNone t := by
  constructor
  · intro hswept v hv hpending
    have hget : w.tableVisits.get? v.1 = some v.2 := get?_of_stale hv
    have hstamp := sweep_stamp w t v.1
    rw [hget, Option.map_some, if_pos (List.mem_map_of_mem hv)] at hstamp
    obtain ⟨v', hv', heq⟩ := Option.map_eq_some_iff.mp hstamp
    -- it is closed, and its time is there
    have htime : v'.billRequestedAt ≠ none := by
      rw [(Prod.mk.inj heq).1]
      exact (h v.1 v.2 hget).mpr hpending
    have hclosed := (hswept v.1 v' hv').mp htime
    rw [(Prod.mk.inj heq).2] at hclosed
    cases hclosed
  · intro hnone id v' hv'
    have hstamp := sweep_stamp w t id
    rw [hv', Option.map_some] at hstamp
    obtain ⟨v, hv, heq⟩ := Option.map_eq_some_iff.mp hstamp.symm
    obtain ⟨htime, hstatus⟩ := Prod.mk.inj heq
    have hpair := h id v hv
    unfold TableVisit.paired at hpair ⊢
    rw [← htime, ← hstatus]
    split
    · next hmem =>
      obtain ⟨u, hu, rfl⟩ := List.mem_map.mp hmem
      cases hv.symm.trans (get?_of_stale hu)
      refine ⟨fun h' => absurd (hpair.mp h') (hnone u hu), fun h' => by cases h'⟩
    · exact hpair

/-! ## The others -/

/-- What an operation keeps of the world, a caller that ignores its answer keeps. -/
theorem alone_ignore {α : Type} {Q : World → Prop} {p : Api α} {w : World}
    (h : Alone (fun w' _ => Q w') p w) :
    Alone (fun w' _ => Q w') ((fun _ => ()) <$> p : Api Unit) w :=
  Prog.alone_map h

/-- The other operations keep the pair. -/
theorem visitCall_paired {w : World} {s : Time × VisitCall} (h : StampsPaired w)
    (hs : s.2 ≠ .closeAbandonedVisits) : StampsPaired (w.visitCall s) := by
  obtain ⟨t, call⟩ := s
  have hw : StampsPaired { w with now := t } := h.congr rfl
  suffices hcall : Alone (fun w' _ => StampsPaired w') call.prog { w with now := t } from hcall
  cases call with
  | openOrJoinVisit tableId venueId =>
    exact alone_ignore (hw.alone (openOrJoinVisit_calls tableId venueId)
      (fun _ _ hop h => h.joinWork hop))
  | requestBill visitId venueId =>
    refine alone_ignore (hw.alone (requestBill_data (U := KeepsPair) (S := KeepsPair) visitId
      venueId ?_) (fun _ _ hop h => h.visitData hop))
    exact fun now v _ => ⟨fun _ => rfl, fun _ h => by cases h⟩
  | clearBillRequest visitId venueId =>
    refine alone_ignore (hw.alone (clearBillRequest_data (U := KeepsPair) (S := KeepsPair) visitId
      venueId ?_) (fun _ _ hop h => h.visitData hop))
    exact fun now v _ => ⟨fun h => absurd rfl h, fun h => by cases h⟩
  | settleVisit visitId venueId input =>
    refine alone_ignore (hw.alone (settleVisit_data (U := KeepsPair) (S := KeepsPair) visitId
      venueId ?_) (fun _ _ hop h => h.visitData hop))
    exact fun totalKurus now v _ => ⟨fun h => absurd rfl h, fun h => by cases h⟩
  | closeAbandonedVisits => exact absurd rfl hs

/-- **A request that finds one pending leaves the visit as it is**, and every other. -/
theorem requestBill_keeps {w : World} {t : Time} {visitId venueId id : Id} {v : TableVisit}
    (hv : w.tableVisits.get? id = some v) (hpending : v.status = .bill_requested) :
    (w.visitCall (t, .requestBill visitId venueId)).tableVisits.get? id = some v := by
  suffices h : Alone (fun w' _ => w'.tableVisits.get? id = some v)
      (VisitCall.prog (.requestBill visitId venueId)) { w with now := t } from h
  refine Prog.alone_map ?_
  unfold Masadan.requestBill
  refine alone_query ?_
  dsimp only
  split
  · exact hv
  · next visit hfound =>
    split
    · exact hv
    · split
      · next hnot =>
        have hne : id ≠ visitId := by
          rintro rfl
          have hrow : w.tableVisits.get? id = some visit := (Option.filter_eq_some_iff.mp hfound).1
          exact hnot (Option.some.inj (hrow.symm.trans hv) ▸ hpending)
        have hrow : w.tableVisits.get? visitId = some visit :=
          (Option.filter_eq_some_iff.mp hfound).1
        refine alone_write (fun w₁ x hx => ?_)
        rw [exec_visitUpdate (w := { w with now := t }) hrow] at hx
        cases hx
        refine alone_write (fun w₂ x₂ hx₂ => ?_)
        cases hx₂
        show (w.tableVisits.updateAt visitId _).get? id = some v
        rw [Rows.get?_updateAt, hv, Option.map_some, if_neg hne]
      · exact alone_write (fun w₁ x hx => by cases hx; exact hv)

/-- Where the pair goes together, asking again changes nothing. -/
theorem StampsPaired.kept {w : World} (h : StampsPaired w) : StampsKept w := by
  intro taps id v hv htime
  have hpending := (h id v hv).mp htime
  clear h htime
  induction taps generalizing w with
  | nil => exact hv
  | cons tap taps ih => exact ih (requestBill_keeps hv hpending)

/-! ## The law -/

/-- **No sweep of the run finds a request pending.** -/
def NoPendingSwept (w₀ : World) (trace : List (Time × VisitCall)) : Prop :=
  ∀ pre t, pre ++ [(t, .closeAbandonedVisits)] <+: trace → (w₀.visitCalls pre).sweepsNone t

/-- **A pending request and its time go together, and asking again changes nothing**, in every
state of a run whose sweeps find no request pending, and in no others. -/
theorem stamps_paired {w₀ : World} (h₀ : StampsPaired w₀) (trace : List (Time × VisitCall)) :
    (∀ pre, pre <+: trace → StampsPaired (w₀.visitCalls pre) ∧ StampsKept (w₀.visitCalls pre))
      ↔ NoPendingSwept w₀ trace := by
  constructor
  · intro h pre t hpre
    have hafter := (h _ hpre).1
    rw [visitCalls_append] at hafter
    exact (sweep_paired_iff (h pre ((List.prefix_append _ _).trans hpre)).1 t).mp hafter
  · intro h pre hpre
    suffices hpaired : StampsPaired (w₀.visitCalls pre) from ⟨hpaired, hpaired.kept⟩
    induction pre using List.reverseRecOn with
    | nil => exact h₀
    | append_singleton pre s ih =>
      have hbefore := ih ((List.prefix_append _ _).trans hpre)
      rw [visitCalls_append]
      by_cases hs : s.2 = .closeAbandonedVisits
      · obtain ⟨t, call⟩ := s
        obtain rfl : call = .closeAbandonedVisits := hs
        exact (sweep_paired_iff hbefore t).mpr (h pre t hpre)
      · exact visitCall_paired hbefore hs

/-- An empty floor. -/
def emptyFloor : World :=
  { World.blank 0 with
    venues := Rows.ofList [⟨[], [], [], none⟩]
    tables := Rows.ofList [⟨0, [], [], 1, true⟩] }

/-- **A closed visit can keep the time of a request**: one that is asked for its bill and then
left alone for more than three hours. -/
theorem stamps_paired_fails :
    ¬ ∀ (w₀ : World) (trace : List (Time × VisitCall)), w₀.tableVisits = Rows.empty →
      StampsPaired (w₀.visitCalls trace) := by
  intro h
  have hpaired := h emptyFloor [(0, .openOrJoinVisit 0 0), (60000, .requestBill 0 0),
    (ABANDON_AFTER_MS + 1, .closeAbandonedVisits)] rfl 0
    ⟨0, 0, .closed, 0, some 60000, some (ABANDON_AFTER_MS + 1), some .abandoned, some 0, none,
      none, none⟩ (by decide)
  exact absurd (hpaired.mp (by decide)) (by decide)

/-- A party that asks for the bill twice, takes that back, and is swept. -/
def askedTwice : List (Time × VisitCall) :=
  [(0, .openOrJoinVisit 0 0), (1, .requestBill 0 0), (2, .requestBill 0 0),
    (3, .clearBillRequest 0 0), (ABANDON_AFTER_MS + 1, .closeAbandonedVisits)]

theorem stamps_paired_twice : StampsPaired (emptyFloor.visitCalls askedTwice)
    ∧ StampsKept (emptyFloor.visitCalls askedTwice) := by
  refine (stamps_paired (fun id v hid => by cases hid) askedTwice).mpr (fun pre t hpre => ?_) _
    List.prefix_rfl
  -- the sweep comes last
  obtain ⟨rest, hrest⟩ := hpre
  obtain ⟨rfl, rfl⟩ : pre = [(0, .openOrJoinVisit 0 0), (1, .requestBill 0 0),
      (2, .requestBill 0 0), (3, .clearBillRequest 0 0)] ∧ t = ABANDON_AFTER_MS + 1 := by
    unfold askedTwice at hrest
    rcases pre with _ | ⟨_, _ | ⟨_, _ | ⟨_, _ | ⟨_, _ | ⟨_, _⟩⟩⟩⟩⟩ <;> simp_all
  unfold World.sweepsNone
  decide

end Masadan
