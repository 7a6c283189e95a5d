import Masadan.Amounts

/-!
# No order falls off every bill

An order's visit travels from the scan to the session and from the session to
the order, and nobody looks at it again on the way. Meanwhile a settlement, the
sweep or a scan that lost a race closes or deletes visits. What is wanted is
that every order is inserted into an open visit of its table, where the bill
finds it.

The invariant that carries it is `Seated`: a session that still validates is
seated at an open visit of its table. `orders_billed` keeps it over every run
in which nobody closes or discards a visit under a session or a request that
relies on it, and `orders_billed_fails` is an order inserted into a visit that
was settled while its request was on the way.
-/

namespace Masadan

/-! ## The requests -/

/-- Scans, orders, settlements and the sweep. -/
inductive SeatRequest where
  | scan (tableId venueId : Id) (token : ℕ)
  | place (req : OrderRequest)
  | settle (visitId venueId : Id) (input : SettleInput)
  | sweep

inductive SeatAnswer where
  | minted (token : ℕ)
  | placed (a : OrderAnswer)
  | settled (result : Except SettleError ℤ)
  | swept (count : ℕ)

def SeatRequest.prog : SeatRequest → Api SeatAnswer
  | .scan tableId venueId token => SeatAnswer.minted <$> mintSession tableId venueId token
  | .place req => SeatAnswer.placed <$> postOrder req
  | .settle visitId venueId input => SeatAnswer.settled <$> settleVisit visitId venueId input
  | .sweep => SeatAnswer.swept <$> closeAbandonedVisits

/-- The server serving these requests. -/
abbrev seatServer : Sys api :=
  server SeatRequest.prog (fun _ => true) (fun _ => []) false

/-- A run of these requests, from a world. -/
abbrev seatRun (w₀ : World) (acts : List seatServer.Action) : seatServer.Pool :=
  Sys.Pool.run (Sys.Pool.init w₀ : seatServer.Pool) acts

/-! ## Seats -/

/-- An open visit of the table. -/
def World.openAt (w : World) (tableId visitId : Id) : Bool :=
  (w.tableVisits.get? visitId).any
    (fun v => v.tableId == tableId && OPEN_VISIT_STATUSES.contains v.status)

/-- The session is neither revoked nor expired: it may still validate. -/
def TableSession.live (now : Time) (s : TableSession) : Bool :=
  s.revokedAt.isNone && decide (now ≤ s.expiresAt)

/-- The live sessions of a visit. -/
def World.seatedAt (w : World) (visitId : Id) : List Id :=
  (w.tableSessions.filter (fun _ s => s.visitId == some visitId && s.live w.now)).map Prod.fst

/-- **Every live session sits at an open visit of its table.** -/
def Seated (w : World) : Prop :=
  ∀ id s, w.tableSessions.get? id = some s → s.live w.now = true →
    ∃ visitId, s.visitId = some visitId ∧ w.openAt s.tableId visitId = true

/-- **Every new order is on a bill**: it is of an open visit of its table, whose
bill covers it. -/
def NewBilled (w w' : World) : Prop :=
  ∀ id o, w.orders.get? id = none → w'.orders.get? id = some o →
    ∃ visitId bill, o.visitId = some visitId ∧ w'.openAt o.tableId visitId = true
      ∧ w'.buildBill visitId = some bill ∧ id ∈ bill.orderIds

theorem mem_seatedAt {w : World} {visitId id : Id} :
    id ∈ w.seatedAt visitId ↔ ∃ s, w.tableSessions.get? id = some s
      ∧ s.visitId = some visitId ∧ s.live w.now = true := by
  unfold World.seatedAt
  rw [List.mem_map]
  constructor
  · rintro ⟨⟨k, s⟩, hmem, rfl⟩
    obtain ⟨hs, hp⟩ := Rows.mem_filter.mp hmem
    rw [Bool.and_eq_true, beq_iff_eq] at hp
    exact ⟨s, hs, hp⟩
  · rintro ⟨s, hs, hvisit, hlive⟩
    refine ⟨(id, s), Rows.mem_filter.mpr ⟨hs, ?_⟩, rfl⟩
    rw [Bool.and_eq_true, beq_iff_eq]
    exact ⟨hvisit, hlive⟩

theorem openAt_iff {w : World} {tableId visitId : Id} :
    w.openAt tableId visitId = true ↔ ∃ v, w.tableVisits.get? visitId = some v
      ∧ v.tableId = tableId ∧ v.status ∈ OPEN_VISIT_STATUSES := by
  unfold World.openAt
  rw [Option.any_eq_true]
  refine exists_congr (fun v => and_congr_right (fun _ => ?_))
  rw [Bool.and_eq_true, beq_iff_eq, List.contains_iff_mem]

theorem openAt_congr {w w' : World} {visitId : Id}
    (h : w'.tableVisits.get? visitId = w.tableVisits.get? visitId) (tableId : Id) :
    w'.openAt tableId visitId = w.openAt tableId visitId := by
  unfold World.openAt
  rw [h]

theorem NewBilled.of_orders {w w' : World}
    (h : ∀ id, w.orders.get? id = none → w'.orders.get? id = none) : NewBilled w w' := by
  intro id o hnone hsome
  rw [h id hnone] at hsome
  cases hsome

theorem NewBilled.of_eq {w w' : World} (h : w'.orders = w.orders) : NewBilled w w' :=
  NewBilled.of_orders (fun _ hnone => h ▸ hnone)

/-! ## The protocol -/

/-- The visit is open if it was when the request saw it: nobody has closed or
discarded it since. -/
def stillOpen (v : View api World) (tableId visitId : Id) (w : World) : Bool :=
  v.past.all (fun e => !e.after.openAt tableId visitId || w.openAt tableId visitId)

/-- **Nobody is unseated.** A scan inserts its session, and a request its order,
while the visit they saw open is open; the sweep closes a visit, and a scan
discards one, when no live session sits at it; and a settlement closes a
visit when each live session at it was there as it read them. -/
def nobodyUnseated (v : View api World) (op : Call) (w : World) : Bool :=
  match op with
  | .orderCreate data _ => data.visitId.all (fun visitId => stillOpen v data.tableId visitId w)
  | .tableSessionCreate data => stillOpen v data.tableId data.visitId w
  | .tableVisitUpdate id _ => (w.seatedAt id).isEmpty
  | .tableVisitDelete id => (w.seatedAt id).isEmpty
  | .settleTransaction visitId _ _ _ _ =>
    (w.seatedAt visitId).all (fun id => (v.since.tableSessions.get? id).isSome)
  | _ => true

/-- Time passes, sessions stay, the live ones seated, and new orders are on a bill, given
that nobody is unseated. -/
abbrev seatProtocol : Protocol seatServer where
  Inv := Seated
  Evolves w w' := w.now ≤ w'.now ∧ NewBilled w w' ∧ SessionsStay w w'
  refl w := ⟨le_refl w.now, NewBilled.of_eq rfl, SessionsStay.of_eq rfl⟩
  Guard _ v _ op w := nobodyUnseated v op w

theorem stillOpen_now {v : View api World} {tableId visitId : Id} {w : World}
    (h : stillOpen v tableId visitId w = true) {e : Event api World} (he : e ∈ v.past)
    (hopen : e.after.openAt tableId visitId = true) : w.openAt tableId visitId = true := by
  have := List.all_eq_true.mp h e he
  rw [hopen] at this
  exact this

theorem seat_now {w w' : World} (h : seatProtocol.Rely w w') : w.now ≤ w'.now :=
  h.stable (D := fun u : World => w.now ≤ u.now) (fun _ _ hstep hu => hu.trans hstep.1)
    (le_refl _)

theorem seat_stay {w w' : World} (h : seatProtocol.Rely w w') : SessionsStay w w' :=
  h.stable (D := SessionsStay w) (fun _ _ hstep hu => hu.trans hstep.2.2) (SessionsStay.of_eq rfl)

/-- What keeps the sessions seated: no session but those already live is live, and
each of them keeps its seat. -/
theorem Seated.of_sessions {w w' : World} (h : Seated w)
    (hs : ∀ id s', w'.tableSessions.get? id = some s' → s'.live w'.now = true →
      ∃ s, w.tableSessions.get? id = some s ∧ s.live w.now = true ∧ s.visitId = s'.visitId
        ∧ s.tableId = s'.tableId
        ∧ ∀ visitId, s.visitId = some visitId → w.openAt s.tableId visitId = true →
          w'.openAt s.tableId visitId = true) : Seated w' := by
  intro id s' hid hlive
  obtain ⟨s, hget, hlive', hvisit, htable, hkeep⟩ := hs id s' hid hlive
  obtain ⟨visitId, hv, hopen⟩ := h id s hget hlive'
  exact ⟨visitId, hvisit ▸ hv, htable ▸ hkeep visitId hv hopen⟩

theorem live_of_le {now now' : Time} {s : TableSession} (h : now ≤ now')
    (hl : s.live now' = true) : s.live now = true := by
  unfold TableSession.live at hl ⊢
  rw [Bool.and_eq_true, decide_eq_true_eq] at hl ⊢
  exact ⟨hl.1, h.trans hl.2⟩

theorem seat_allows : AllowsHarmless seatProtocol := by
  intro r v w w' op _ h hw
  refine ⟨hw.of_sessions (fun id s' hid hlive => ?_),
    ⟨h.now.ge, NewBilled.of_eq h.orders, h.sessionsStay⟩, trivial⟩
  obtain ⟨s, hs, heq⟩ := h.tableSessions id s' hid
  rw [h.now] at hlive
  refine ⟨s, hs, ?_, by rw [heq], by rw [heq], fun visitId _ hopen => ?_⟩
  · rw [heq] at hlive
    exact hlive
  · rw [openAt_congr (congrArg (fun t => t.get? visitId) h.tableVisits)]
    exact hopen

/-! ## Each write keeps it -/

section

variable {r : SeatRequest} {v : View api World} {w w' : World}

/-- Nobody sits at a visit with no live session. -/
theorem ne_of_not_seatedAt {id sessionId visitId : Id} {s : TableSession}
    (hnone : sessionId ∉ w.seatedAt id) (hs : w.tableSessions.get? sessionId = some s)
    (hlive : s.live w.now = true) (hv : s.visitId = some visitId) : visitId ≠ id := by
  rintro rfl
  exact hnone (mem_seatedAt.mpr ⟨s, hs, hv, hlive⟩)

/-- The sweep's close. -/
theorem takes_abandon {id : Id} {data : Time → TableVisit → TableVisit}
    {x : Except DbError Unit} (hw : Seated w)
    (hg : nobodyUnseated v (.tableVisitUpdate id data) w = true)
    (hx : w.tableVisitUpdate id data = (w', x)) :
    seatProtocol.Takes r v ⟨.tableVisitUpdate id data, w, w'⟩ := by
  unfold World.tableVisitUpdate at hx
  split at hx
  · obtain ⟨rfl, _⟩ := Prod.mk.inj hx
    exact ⟨hw, ⟨le_refl _, NewBilled.of_eq rfl, SessionsStay.of_eq rfl⟩, trivial⟩
  · obtain ⟨rfl, _⟩ := Prod.mk.inj hx
    refine ⟨hw.of_sessions (fun k s hs hlive => ⟨s, hs, hlive, rfl, rfl, fun visitId hv hopen => ?_⟩),
      ⟨le_refl _, NewBilled.of_eq rfl, SessionsStay.of_eq rfl⟩, trivial⟩
    have hnone : k ∉ w.seatedAt id := by
      rw [List.isEmpty_iff.mp hg]
      exact List.not_mem_nil
    have hne := ne_of_not_seatedAt hnone hs hlive hv
    rw [openAt_congr]
    · exact hopen
    · show (w.tableVisits.updateAt id _).get? visitId = _
      rw [Rows.get?_updateAt]
      simp [hne]

/-- A scan discards its visit. -/
theorem takes_discard {id : Id} {x : Except DbError Unit} (hw : Seated w)
    (hg : nobodyUnseated v (.tableVisitDelete id) w = true)
    (hx : w.tableVisitDelete id = (w', x)) :
    seatProtocol.Takes r v ⟨.tableVisitDelete id, w, w'⟩ := by
  have hstay : SessionsStay w w' := SessionsStay.discard hx
  unfold World.tableVisitDelete at hx
  split at hx
  · obtain ⟨rfl, _⟩ := Prod.mk.inj hx
    exact ⟨hw, ⟨le_refl _, NewBilled.of_eq rfl, SessionsStay.of_eq rfl⟩, trivial⟩
  · obtain ⟨rfl, _⟩ := Prod.mk.inj hx
    refine ⟨hw.of_sessions (fun k s' hs' hlive' => ?_), ⟨le_refl _, NewBilled.of_orders ?_, hstay⟩,
      trivial⟩
    · have hget : (w.tableSessions.update _ _).get? k = some s' := hs'
      rw [Rows.get?_update] at hget
      obtain ⟨s, hs, hs'⟩ := Option.map_eq_some_iff.mp hget
      have hnone : k ∉ w.seatedAt id := by
        rw [List.isEmpty_iff.mp hg]
        exact List.not_mem_nil
      by_cases hseat : (s.visitId == some id) = true
      · -- a session of the discarded visit is not live
        rw [if_pos hseat] at hs'
        subst hs'
        exact absurd (mem_seatedAt.mpr ⟨s, hs, beq_iff_eq.mp hseat, hlive'⟩) hnone
      · rw [if_neg hseat] at hs'
        subst hs'
        refine ⟨s, hs, hlive', rfl, rfl, fun visitId hv hopen => ?_⟩
        have hne := ne_of_not_seatedAt hnone hs hlive' hv
        rw [openAt_congr]
        · exact hopen
        · show (w.tableVisits.erase _).get? visitId = _
          rw [Rows.get?_erase]
          cases w.tableVisits.get? visitId with
          | none => rfl
          | some visit => simp [hne]
    · intro k hnone
      show (w.orders.update _ _).get? k = none
      rw [Rows.get?_update, hnone]
      rfl

/-- A settlement's close: it revokes the sessions it has read. -/
theorem takes_settle {visitId : Id} {data : Time → TableVisit → TableVisit}
    {orderIds : List Id} {provider : PaymentMethod} {n : ℕ} (hw : Seated w)
    (hstay : SessionsStay v.since w)
    (hg : nobodyUnseated v (.settleTransaction visitId data orderIds provider
      (v.since.unrevokedSessions visitId)) w = true)
    (hx : w.settleTransaction visitId data orderIds provider
      (v.since.unrevokedSessions visitId) = (w', n)) :
    seatProtocol.Takes r v ⟨.settleTransaction visitId data orderIds provider
      (v.since.unrevokedSessions visitId), w, w'⟩ := by
  rcases settleTransaction_cases hx with ⟨rfl, _⟩ | ⟨_, _, _, _, rfl⟩
  · exact ⟨hw, ⟨le_refl _, NewBilled.of_eq rfl, SessionsStay.of_eq rfl⟩, trivial⟩
  · refine ⟨hw.of_sessions (fun k s' hs' hlive' => ?_),
      ⟨le_refl _, NewBilled.of_orders ?_, SessionsStay.of_revoke
        (p := fun id _ => (v.since.unrevokedSessions visitId).contains id) rfl⟩, trivial⟩
    · have hunrevoked : s'.revokedAt = none :=
        Option.isNone_iff_eq_none.mp (Bool.and_eq_true_iff.mp hlive').1
      obtain ⟨hs, hspared⟩ := get?_revoked hs' hunrevoked
      refine ⟨s', hs, hlive', rfl, rfl, fun id hv hopen => ?_⟩
      -- had it sat at this visit, the settlement would have found it
      have hnone : k ∉ w.seatedAt visitId := by
        intro hin
        obtain ⟨s, hs₁, hof, _⟩ := mem_seatedAt.mp hin
        obtain rfl : s' = s := Option.some.inj (hs.symm.trans hs₁)
        exact hspared (List.contains_iff_mem.mpr
          (hstay.found hs hof hunrevoked (List.all_eq_true.mp hg k hin)))
      have hne := ne_of_not_seatedAt hnone hs hlive' hv
      rw [openAt_congr]
      · exact hopen
      · exact get?_closable_other hne
    · intro k hnone
      show (w.orders.update _ _).get? k = none
      rw [Rows.get?_update, hnone]
      rfl

/-- A new visit. -/
theorem takes_open (hw : Seated w) (tableId venueId : Id) :
    seatProtocol.Takes r v
      ⟨.tableVisitCreate tableId venueId, w, w.tableVisitCreate tableId venueId⟩ := by
  refine ⟨hw.of_sessions (fun k s hs hlive => ⟨s, hs, hlive, rfl, rfl, fun visitId _ hopen => ?_⟩),
    ⟨le_refl _, NewBilled.of_eq rfl, SessionsStay.of_eq rfl⟩, trivial⟩
  obtain ⟨visit, hvisit, hrest⟩ := openAt_iff.mp hopen
  exact openAt_iff.mpr ⟨visit, Rows.get?_create_of_some hvisit, hrest⟩

/-- A new session, at a visit that is open. -/
theorem takes_mint {data : NewTableSession} {x : Except DbError Id} (hw : Seated w)
    (hopen : w.openAt data.tableId data.visitId = true)
    (hx : w.tableSessionCreate data = (w', x)) :
    seatProtocol.Takes r v ⟨.tableSessionCreate data, w, w'⟩ := by
  have hstay : SessionsStay w w' := SessionsStay.mint hx
  unfold World.tableSessionCreate at hx
  split at hx
  · obtain ⟨rfl, _⟩ := Prod.mk.inj hx
    exact ⟨hw, ⟨le_refl _, NewBilled.of_eq rfl, SessionsStay.of_eq rfl⟩, trivial⟩
  · obtain ⟨rfl, _⟩ := Prod.mk.inj hx
    refine ⟨fun k s hs hlive => ?_, ⟨le_refl _, NewBilled.of_eq rfl, hstay⟩, trivial⟩
    have hget : (w.tableSessions.create _).get? k = some s := hs
    rw [Rows.get?_create] at hget
    split at hget
    · cases hget
      exact ⟨data.visitId, rfl, hopen⟩
    · exact hw k s hget hlive

/-- The displaced sessions are revoked. -/
theorem takes_displace {cond : Id → TableSession → Bool} (hw : Seated w) :
    seatProtocol.Takes r v ⟨.tableSessionUpdateMany cond revoke, w,
      { w with tableSessions := w.tableSessions.update cond (revoke w.now) }⟩ := by
  refine ⟨hw.of_sessions (fun k s' hs' hlive' => ?_),
    ⟨le_refl _, NewBilled.of_eq rfl, SessionsStay.of_revoke rfl⟩, trivial⟩
  have hunrevoked : s'.revokedAt = none :=
    Option.isNone_iff_eq_none.mp (Bool.and_eq_true_iff.mp hlive').1
  exact ⟨s', (get?_revoked hs' hunrevoked).1, hlive', rfl, rfl, fun _ _ hopen => hopen⟩

/-- A new order, of a visit that is open. -/
theorem takes_insert {c : Choice} {data : NewOrder} {items : List NewOrderItem} {visitId : Id}
    {x : Except DbError (Id × ℕ)} (hw : Seated w) (hv : data.visitId = some visitId)
    (hopen : w.openAt data.tableId visitId = true) (hx : w.orderCreate c data items = (w', x)) :
    seatProtocol.Takes r v ⟨.orderCreate data items, w, w'⟩ := by
  rcases orderCreate_cases hx with h | h
  · rw [h.1]
    exact ⟨hw, ⟨le_refl _, NewBilled.of_eq rfl, SessionsStay.of_eq rfl⟩, trivial⟩
  · rw [h.1]
    refine ⟨hw, ⟨le_refl _, fun id o hnone hsome => ?_, SessionsStay.of_eq rfl⟩, trivial⟩
    have hget : (w.orders.create _).get? id = some o := hsome
    have hget' := hget
    rw [Rows.get?_create] at hget
    split at hget
    · cases hget
      obtain ⟨visit, hvisit, _⟩ := openAt_iff.mp hopen
      obtain ⟨bill, hbill⟩ := buildBill_isSome (w := w.insertOrder data items) hvisit
      refine ⟨visitId, bill, hv, hopen, hbill, (buildBill_orderIds hbill).mem_iff.mpr ?_⟩
      refine List.mem_map.mpr ⟨(id, _), Rows.mem_filter.mpr ⟨hget', ?_⟩, rfl⟩
      rw [Bool.and_eq_true, beq_iff_eq]
      exact ⟨hv, rfl⟩
    · dsimp only at hnone
      rw [hnone] at hget
      cases hget

end

/-! ## What a scan has seen -/

section

variable {R A : Type} {prog : R → Api A} {external : R → Bool} {background : Job → List R}
  {P : Protocol (server prog external background false)} {r : R} {v : View api World}

/-- The request saw an open visit of the table. -/
def SawOpen (v : View api World) (tableId visitId : Id) : Prop :=
  ∃ e ∈ v.past, e.after.openAt tableId visitId = true

theorem SawOpen.extend {v v' : View api World} {tableId visitId : Id}
    (h : SawOpen v tableId visitId) (hpast : v.past <:+ v'.past) : SawOpen v' tableId visitId := by
  obtain ⟨e, he, hopen⟩ := h
  exact ⟨e, hpast.mem he, hopen⟩

theorem openAt_of_mem {w : World} {tableId : Id} {p : Id × TableVisit}
    (h : p ∈ w.openVisitsOf tableId) : w.openAt tableId p.1 = true := by
  obtain ⟨hget, hp⟩ := Rows.mem_filter.mp h
  rw [Bool.and_eq_true, beq_iff_eq, List.contains_iff_mem] at hp
  exact openAt_iff.mpr ⟨p.2, hget, hp⟩

/-- What a scan reads of the table's open visits is open. -/
theorem openAt_of_sorted {w : World} {tableId id : Id} {l : List (Id × TableVisit)}
    (hl : l.Perm (w.openVisitsOf tableId)) (h : id ∈ l.map Prod.fst) :
    w.openAt tableId id = true := by
  obtain ⟨p, hp, rfl⟩ := List.mem_map.mp h
  exact openAt_of_mem (hl.mem_iff.mp hp)

/-- A scan, under any protocol that allows it to open a visit and to discard it again, chooses
a visit that it saw open. -/
theorem openOrJoinVisit_ok (hP : AllowsHarmless P) (tableId venueId : Id)
    (hopen : ∀ v' w, P.Inv w →
      P.Takes r v' ⟨.tableVisitCreate tableId venueId, w, w.tableVisitCreate tableId venueId⟩)
    (hdiscard : ∀ v' w c id, P.Inv w → P.Guard r v' c (.tableVisitDelete id) w = true →
      P.Takes r v' ⟨.tableVisitDelete id, w, (w.tableVisitDelete id).1⟩) :
    P.Ok r (fun v' x => ∀ id, x = .ok id → SawOpen v' tableId id) v
      (openOrJoinVisit tableId venueId) := by
  unfold openOrJoinVisit
  refine ok_query hP _ (fun w₁ _ _ => ?_)
  split
  · next id hexisting =>
    rintro _ ⟨⟩
    refine ⟨_, List.mem_cons_self, openAt_of_sorted (orderByDesc_perm (fun v => v.2.openedAt) _) ?_⟩
    obtain ⟨p, hp, rfl⟩ := Option.map_eq_some_iff.mp hexisting
    exact List.mem_map_of_mem (List.mem_of_mem_head? hp)
  · refine ok_write (fun w c w' x hw _ _ hx => ?_)
    obtain ⟨rfl, rfl⟩ := Prod.mk.inj hx
    refine ⟨hopen _ _ hw, ?_⟩
    -- the visit just created is open
    have hcreated : (w.tableVisitCreate tableId venueId).openAt tableId w.tableVisits.next = true :=
      openAt_iff.mpr ⟨_, Rows.get?_create_next _ _, rfl, List.mem_cons_self⟩
    refine ok_query hP _ (fun w₂ _ _ => ?_)
    split
    · next oldest _ _ hopened =>
      split
      · rintro _ ⟨⟩
        exact ⟨_, List.mem_cons_of_mem _ List.mem_cons_self, hcreated⟩
      · -- the older visit was open when the scan looked
        have holdest : w₂.openAt tableId oldest = true := by
          refine openAt_of_sorted (orderBy_perm (fun v => v.2.openedAt) _) ?_
          rw [hopened]
          exact List.mem_cons_self
        refine Protocol.ok_bind (Protocol.ok_attempt (Protocol.ok_mono (Protocol.ok_extend
          (Protocol.ok_perform (fun w₃ c₃ hw₃ _ hg => hdiscard _ w₃ c₃ _ hw₃ hg)))
          (fun v' x hx => ?_)))
        rintro _ ⟨⟩
        exact ⟨_, hx.2.2.1.mem List.mem_cons_self, holdest⟩
    · rintro _ ⟨⟩
      exact ⟨_, List.mem_cons_of_mem _ List.mem_cons_self, hcreated⟩

/-- And it mints a session there, if it is allowed to, and to displace others. -/
theorem mintSession_ok (hP : AllowsHarmless P) (tableId venueId : Id) (token : ℕ)
    (hopen : ∀ v' w, P.Inv w →
      P.Takes r v' ⟨.tableVisitCreate tableId venueId, w, w.tableVisitCreate tableId venueId⟩)
    (hdiscard : ∀ v' w c id, P.Inv w → P.Guard r v' c (.tableVisitDelete id) w = true →
      P.Takes r v' ⟨.tableVisitDelete id, w, (w.tableVisitDelete id).1⟩)
    (hmint : ∀ v' w c (data : NewTableSession), SawOpen v' data.tableId data.visitId → P.Inv w →
      P.Guard r v' c (.tableSessionCreate data) w = true →
      P.Takes r v' ⟨.tableSessionCreate data, w, (w.tableSessionCreate data).1⟩)
    (hdisplace : ∀ v' w cond, P.Inv w → P.Takes r v' ⟨.tableSessionUpdateMany cond revoke, w,
      { w with tableSessions := w.tableSessions.update cond (revoke w.now) }⟩) :
    P.Ok r (fun _ _ => True) v (mintSession tableId venueId token) := by
  unfold mintSession
  refine Protocol.ok_bind (Protocol.ok_mono
    (openOrJoinVisit_ok hP tableId venueId hopen hdiscard) (fun v₁ x hx => ?_))
  cases x with
  | error e => exact trivial
  | ok visitId =>
    refine ok_write (fun w c w' x hw _ hg hexec => ?_)
    obtain rfl : _ = w' := congrArg Prod.fst hexec
    refine ⟨hmint _ w c ⟨tableId, venueId, token, visitId, HARD_CAP_MS⟩ (hx visitId rfl) hw hg, ?_⟩
    cases x with
    | error e => exact trivial
    | ok id =>
      refine ok_query hP _ (fun w₂ _ _ => ?_)
      split
      · refine ok_write (fun w₃ c₃ w₃' x₃ hw₃ _ _ hx₃ => ?_)
        obtain ⟨rfl, rfl⟩ := Prod.mk.inj hx₃
        exact ⟨hdisplace _ w₃ _ hw₃, trivial⟩
      · exact trivial

end

/-! ## Each handler keeps it -/

section

variable {r : SeatRequest} {v : View api World}

theorem mintSession_seat (tableId venueId : Id) (token : ℕ) :
    seatProtocol.Ok r (fun _ _ => True) v (mintSession tableId venueId token) := by
  refine mintSession_ok seat_allows tableId venueId token (fun _ _ hw => takes_open hw _ _)
    (fun _ _ _ _ hw hg => takes_discard hw hg rfl) (fun v' w c data hsaw hw hg => ?_)
    (fun _ _ _ hw => takes_displace hw)
  obtain ⟨e, he, hopen⟩ := hsaw
  exact takes_mint hw (stillOpen_now hg he hopen) rfl

/-- A session that validated sat at an open visit when it did. -/
theorem Validated.sawOpen {cookie : Option ℕ} {session : ActiveSession} {w : World}
    (h : Validated seatProtocol cookie session w) :
    ∃ visitId, session.visitId = some visitId ∧ w.openAt session.tableId visitId = true := by
  obtain ⟨s, hs, _, htable, hvisit, hrevoked, w₂, hrely, hexpires⟩ := h.row
  have hlive : s.live w.now = true := by
    unfold TableSession.live
    rw [hrevoked, Bool.and_eq_true, decide_eq_true_eq]
    exact ⟨rfl, (seat_now hrely).trans hexpires⟩
  obtain ⟨visitId, hv, hopen⟩ := h.inv session.id s hs hlive
  exact ⟨visitId, hvisit ▸ hv, htable ▸ hopen⟩

theorem answerOrder_seat (req : OrderRequest) (session : ActiveSession) {visitId : Id}
    (hvisit : session.visitId = some visitId) (hsaw : SawOpen v session.tableId visitId) :
    seatProtocol.Ok r (fun _ _ => True) v (answerOrder req session) := by
  refine Protocol.ok_mono (Protocol.ok_of_calls_given
    (K := fun past => ∃ e ∈ past, e.after.openAt session.tableId visitId = true)
    (answerOrder_calls req session) (fun e es h => ?_) (fun v w c op hK hop hw hg => ?_) hsaw)
    (fun _ _ _ => trivial)
  · obtain ⟨e', he', hopen⟩ := h
    exact ⟨e', List.mem_cons_of_mem _ he', hopen⟩
  · rcases placeWork_cases hop with ⟨data, items, rfl, key, hplaced⟩ | hop
    · obtain ⟨e, he, hopen⟩ := hK
      have hv : data.visitId = some visitId := hplaced.ofVisit.trans hvisit
      have hstill : stillOpen v data.tableId visitId w = true := by
        have hg' : data.visitId.all (fun id => stillOpen v data.tableId id w) = true := hg
        rw [hv] at hg'
        exact hg'
      rw [← hplaced.ofTable] at hopen
      exact takes_insert hw hv (stillOpen_now hstill he hopen) rfl
    · exact seat_allows.exec hop c hw

theorem postOrder_seat (req : OrderRequest) :
    seatProtocol.Ok r (fun _ _ => True) v (postOrder req) := by
  unfold postOrder
  refine Protocol.ok_bind (Protocol.ok_mono (getActiveSession_ok seat_allows req.cookie none)
    (fun v₁ x hx => ?_))
  cases x with
  | error e => exact trivial
  | ok session =>
    cases session with
    | none =>
      show seatProtocol.Ok _ _ _ (if _ then _ else _)
      split
      · exact ok_harmless_bind seat_allows (logAttempt_calls _ _ _) (fun _ _ _ _ _ => trivial)
          (fun _ _ _ _ => trivial)
      · exact trivial
    | some session =>
      obtain ⟨e, he, hvalid⟩ := hx session rfl
      obtain ⟨visitId, hvisit, hopen⟩ := hvalid.sawOpen
      exact answerOrder_seat req session hvisit ⟨e, he, hopen⟩

theorem settleVisit_seat (visitId venueId : Id) (input : SettleInput) :
    seatProtocol.Ok r (fun _ _ => True) v (settleVisit visitId venueId input) :=
  settleVisit_commits seat_allows
    (fun _ _ _ _ _ _ _ hw hv hg hx => takes_settle hw (seat_stay hv) hg hx) venueId

theorem sweep_seat : seatProtocol.Ok r (fun _ _ => True) v closeAbandonedVisits := by
  refine Protocol.ok_mono (Protocol.ok_of_calls closeAbandonedVisits_calls
    (fun v w c op hop hw hg => ?_)) (fun _ _ _ => trivial)
  rcases visitWork_cases hop with ⟨id, data, rfl⟩ | hop
  · exact takes_abandon hw hg rfl
  · exact seat_allows.exec hop c hw

end

/-! ## The law -/

theorem seatSound : seatProtocol.Sound (fun _ _ _ => True) where
  env e w hw := by
    cases e with
    | tick ms =>
      have hle : w.now ≤ w.now + (ms : ℤ) := Int.le_add_of_nonneg_right (Int.natCast_nonneg ms)
      exact ⟨hw.of_sessions (fun id s hs hlive =>
        ⟨s, hs, live_of_le hle hlive, rfl, rfl, fun _ _ hopen => hopen⟩),
        hle, NewBilled.of_eq rfl, SessionsStay.of_eq rfl⟩
    | crash => exact ⟨hw, le_refl _, NewBilled.of_eq rfl, SessionsStay.of_eq rfl⟩
  entry r w _ := by
    cases r with
    | scan tableId venueId token => exact Protocol.ok_map (mintSession_seat tableId venueId token)
    | place req => exact Protocol.ok_map (postOrder_seat req)
    | settle visitId venueId input => exact Protocol.ok_map (settleVisit_seat visitId venueId input)
    | sweep => exact Protocol.ok_map sweep_seat

/-- **No order falls off every bill**: each step of a run inserts only orders of an
open visit of their table, whose bill covers them, in every run in which
nobody is unseated. -/
theorem orders_billed (w₀ : World) (acts : List seatServer.Action) (h₀ : Seated w₀)
    (h : Sys.Pool.Meets seatProtocol.cond (Sys.Pool.init w₀) acts = true)
    (pre post : List seatServer.Action) (a : seatServer.Action) (hacts : acts = pre ++ a :: post) :
    NewBilled (seatRun w₀ pre).world (seatRun w₀ (pre ++ [a])).world := by
  subst hacts
  exact (seatSound.run_step h₀ h).2.1

/-! ## An order on a settled visit -/

/-- A free table, and a dish of one lira. -/
def tableFree : World :=
  { World.blank 0 with
    venues := Rows.ofList [⟨[], [], [], none⟩]
    tables := Rows.ofList [⟨0, [], [], 1, true⟩]
    menuItems := Rows.ofList [⟨0, [], 100, true, []⟩] }

/-- A phone scans the table; its order is on the way. -/
def orderUnderway : List seatServer.Action :=
  [.arrive (.scan 0 0 7)] ++ List.replicate 5 (.step 0 plain)
    ++ [.arrive (.place ⟨some 7, ⟨[], []⟩, some ⟨[⟨0, 1, none, none⟩], none⟩, .plain, true⟩)]
    ++ List.replicate 6 (.step 1 plain)

/-- The till settles the table. -/
def settleTable : List seatServer.Action :=
  [.arrive (.settle 0 0 ⟨.cash, none, 0, false⟩)] ++ List.replicate 6 (.step 2 plain)

/-- **An order can be inserted into a closed visit**, with one scan, one order and
one settlement. -/
theorem orders_billed_fails :
    ¬ ∀ (w₀ : World) (acts : List seatServer.Action), w₀.tableSessions = Rows.empty →
      ∀ pre post a, acts = pre ++ a :: post →
        NewBilled (seatRun w₀ pre).world (seatRun w₀ (pre ++ [a])).world := by
  intro h
  have hbilled := h tableFree (orderUnderway ++ settleTable ++ [.step 1 plain]) rfl
    (orderUnderway ++ settleTable) [] (.step 1 plain) rfl
  obtain ⟨visitId, bill, hvisit, hopen, _⟩ := hbilled 0
    ⟨0, 0, 0, some 0, 1, .received, none, 100, .unpaid, none, none, 0⟩ (by decide) (by decide)
  cases hvisit
  exact absurd hopen (by decide)

/-- Orders on a run in which the order comes before the settlement. -/
theorem orders_billed_in_turn :
    NewBilled (seatRun tableFree orderUnderway).world
      (seatRun tableFree (orderUnderway ++ [.step 1 plain])).world :=
  orders_billed tableFree (orderUnderway ++ [.step 1 plain] ++ settleTable)
    (fun id s hid => by cases hid) (by decide) orderUnderway settleTable (.step 1 plain) (by simp)

end Masadan
