import Masadan.HouseSteps

/-!
# Fit calls

What every call of a handler comes to, as steps on one table after another, and what the
moves of the rest of the application come to.
-/

namespace Masadan

variable {M : Kind → Addr → Prop} {w w' : World}

/-! ## New rows -/

section

variable (hw : Coherent w)
include hw

/-- A table is added. -/
theorem step_newTable {t : Table} (hvenue : ∃ v, w.venues.get? t.venueId = some v)
    (hM : M .table (t.addr w.tables.next)) :
    Step M w { w with tables := w.tables.create t } := by
  have hk : Kept w { w with tables := w.tables.create t } :=
    { Kept.refl w with tables := Rows.follows_create TableKept.refl _ _ }
  refine ⟨hw.follow hk ⟨Rows.stays_create _ _, Rows.Stays.refl _, Rows.Stays.refl _⟩
    { NewFit.refl w with tables := fun id u hu => ?_ }, hk,
    { Within.refl M w with table := fun id u hd => ?_ }⟩
  · have hget : (w.tables.create t).get? id = some u := hu
    rw [Rows.get?_create] at hget
    split at hget
    · cases hget
      exact .inr hvenue
    · exact .inl ⟨u, hget⟩
  · obtain ⟨rfl, rfl⟩ := Rows.differs_create hd
    exact hM

/-- A visit is opened. -/
theorem step_newVisit {v : TableVisit} (htable : w.TableThere v.tableId v.venueId)
    (hM : M .visit v.addr) : Step M w { w with tableVisits := w.tableVisits.create v } := by
  have hk : Kept w { w with tableVisits := w.tableVisits.create v } :=
    { Kept.refl w with visits := Rows.follows_create VisitKept.refl _ _ }
  refine ⟨hw.follow hk ⟨Rows.Stays.refl _, Rows.stays_create _ _, Rows.Stays.refl _⟩
    { NewFit.refl w with visits := fun id u hu => ?_ }, hk,
    { Within.refl M w with visit := fun id u hd => ?_ }⟩
  · have hget : (w.tableVisits.create v).get? id = some u := hu
    rw [Rows.get?_create] at hget
    split at hget
    · cases hget
      exact .inr htable
    · exact .inl ⟨u, hget⟩
  · obtain ⟨rfl, rfl⟩ := Rows.differs_create hd
    exact hM

/-- A session is minted. -/
theorem step_newSession {s : TableSession} (htable : w.TableThere s.tableId s.venueId)
    (hvisit : ∀ visitId, s.visitId = some visitId → w.VisitThere visitId s.tableId)
    (hM : M .session (s.addr w.tableSessions.next)) :
    Step M w { w with tableSessions := w.tableSessions.create s } := by
  have hk : Kept w { w with tableSessions := w.tableSessions.create s } :=
    { Kept.refl w with sessions := Rows.follows_create SessionKept.refl _ _ }
  refine ⟨hw.follow hk ⟨Rows.Stays.refl _, Rows.Stays.refl _, Rows.stays_create _ _⟩
    { NewFit.refl w with sessions := fun id u hu => ?_ }, hk,
    { Within.refl M w with session := fun id u hd => ?_ }⟩
  · have hget : (w.tableSessions.create s).get? id = some u := hu
    rw [Rows.get?_create] at hget
    split at hget
    · cases hget
      exact .inr ⟨htable, hvisit⟩
    · exact .inl ⟨u, hget⟩
  · obtain ⟨rfl, rfl⟩ := Rows.differs_create hd
    exact hM

/-- An order is placed. -/
theorem step_newOrder {o : Order} (hsession : w.SessionThere o.sessionId o.tableId o.venueId)
    (hvisit : ∀ visitId, o.visitId = some visitId → w.VisitThere visitId o.tableId)
    (hM : M .order (o.addr w.orders.next)) :
    Step M w { w with orders := w.orders.create o } := by
  have hk : Kept w { w with orders := w.orders.create o } :=
    { Kept.refl w with
      orders := Rows.follows_create OrderKept.refl _ _
      ordersStay := Rows.stays_create _ _ }
  refine ⟨hw.follow hk (AllStay.of_eq rfl rfl rfl)
    { NewFit.refl w with orders := fun id u hu => ?_ }, hk,
    { Within.refl M w with
      order := fun id u hd => ?_
      item := fun _ _ _ hd _ => (hd.of_eq rfl).elim
      edit := fun _ _ _ hd _ => (hd.of_eq rfl).elim }⟩
  · have hget : (w.orders.create o).get? id = some u := hu
    rw [Rows.get?_create] at hget
    split at hget
    · cases hget
      exact .inr ⟨hsession, hvisit⟩
    · exact .inl ⟨u, hget⟩
  · obtain ⟨rfl, rfl⟩ := Rows.differs_create hd
    exact hM

/-- The lines of an order are inserted. -/
theorem step_newItems {orderId : Id} {o : Order} {items : List OrderItem}
    (ho : w.orders.get? orderId = some o) (hitems : ∀ i ∈ items, i.orderId = orderId)
    (hM : M .item (o.addr orderId)) :
    Step M w { w with orderItems := w.orderItems.createAll items } := by
  have hk : Kept w { w with orderItems := w.orderItems.createAll items } :=
    { Kept.refl w with
      items := Rows.follows_createAll ItemKept.refl ItemKept.trans _ _
      itemsStay := Rows.stays_createAll _ _ }
  refine ⟨hw.follow hk (AllStay.of_eq rfl rfl rfl)
    { NewFit.refl w with items := fun id i hi => ?_ }, hk,
    { Within.refl M w with item := fun id i u hd hu => ?_ }⟩
  · rcases Rows.get?_createAll hi with hold | hnew
    · exact .inl ⟨i, hold⟩
    · rw [hitems i hnew]
      exact .inr ⟨o, ho⟩
  · rw [hitems i (Rows.differs_createAll hd)] at hu ⊢
    cases ho.symm.trans hu
    exact hM

/-- A correction is put on record. -/
theorem step_newEdit {e : OrderEdit} {o : Order} (ho : w.orders.get? e.orderId = some o)
    (hM : M .edit (o.addr e.orderId)) :
    Step M w { w with orderEdits := w.orderEdits.create e } := by
  have hk : Kept w { w with orderEdits := w.orderEdits.create e } :=
    { Kept.refl w with
      edits := Rows.follows_create (fun _ => rfl) _ _
      editsStay := Rows.stays_create _ _ }
  refine ⟨hw.follow hk (AllStay.of_eq rfl rfl rfl)
    { NewFit.refl w with edits := fun id u hu => ?_ }, hk,
    { Within.refl M w with edit := fun id u o' hd ho' => ?_ }⟩
  · have hget : (w.orderEdits.create e).get? id = some u := hu
    rw [Rows.get?_create] at hget
    split at hget
    · cases hget
      exact .inr ⟨o, ho⟩
    · exact .inl ⟨u, hget⟩
  · obtain ⟨rfl, rfl⟩ := Rows.differs_create hd
    cases ho.symm.trans ho'
    exact hM

/-- A delivery is written. -/
theorem step_newDelivery {d : PosDelivery} (horder : w.OrderThere d.orderId d.venueId)
    (hM : M .delivery d.addr) :
    Step M w { w with posDeliveries := w.posDeliveries.create d } := by
  have hk : Kept w { w with posDeliveries := w.posDeliveries.create d } :=
    { Kept.refl w with
      deliveries := Rows.follows_create DeliveryKept.refl _ _
      deliveriesStay := Rows.stays_create _ _ }
  refine ⟨hw.follow hk (AllStay.of_eq rfl rfl rfl)
    { NewFit.refl w with deliveries := fun id u hu => ?_ }, hk,
    { Within.refl M w with delivery := fun id u hd => ?_ }⟩
  · have hget : (w.posDeliveries.create d).get? id = some u := hu
    rw [Rows.get?_create] at hget
    split at hget
    · cases hget
      exact .inr horder
    · exact .inl ⟨u, hget⟩
  · obtain ⟨rfl, rfl⟩ := Rows.differs_create hd
    exact hM

/-- An account is created. -/
theorem step_newStaff {u : StaffUser} (hvenue : ∃ v, w.venues.get? u.venueId = some v)
    (hM : M .staff (u.addr w.staffUsers.next)) :
    Step M w { w with staffUsers := w.staffUsers.create u } := by
  have hk : Kept w { w with staffUsers := w.staffUsers.create u } :=
    { Kept.refl w with
      staff := Rows.follows_create StaffKept.refl _ _
      staffStay := Rows.stays_create _ _ }
  refine ⟨hw.follow hk (AllStay.of_eq rfl rfl rfl)
    { NewFit.refl w with staff := fun id u' hu' => ?_ }, hk,
    { Within.refl M w with staff := fun id u' hd => ?_ }⟩
  · have hget : (w.staffUsers.create u).get? id = some u' := hu'
    rw [Rows.get?_create] at hget
    split at hget
    · cases hget
      exact .inr hvenue
    · exact .inl ⟨u', hget⟩
  · obtain ⟨rfl, rfl⟩ := Rows.differs_create hd
    exact hM

/-! ## Rows that go -/

/-- Visits go that nothing refers to. -/
theorem step_eraseVisits {p : Id → TableVisit → Bool}
    (hsessions : ∀ id s, w.tableSessions.get? id = some s → ∀ visitId, s.visitId = some visitId →
      ∀ v, w.tableVisits.get? visitId = some v → p visitId v = false)
    (horders : ∀ id o, w.orders.get? id = some o → ∀ visitId, o.visitId = some visitId →
      ∀ v, w.tableVisits.get? visitId = some v → p visitId v = false)
    (hM : ∀ id v, w.tableVisits.get? id = some v → p id v = true → M .visit v.addr) :
    Step M w { w with tableVisits := w.tableVisits.erase p } := by
  have hleft : ∀ {visitId tableId}, w.VisitThere visitId tableId →
      (∀ v, w.tableVisits.get? visitId = some v → p visitId v = false) →
      ({ w with tableVisits := w.tableVisits.erase p } : World).VisitThere visitId tableId := by
    rintro visitId tableId ⟨v, hv, htable⟩ hp
    refine ⟨v, ?_, htable⟩
    show (w.tableVisits.erase p).get? visitId = some v
    rw [Rows.get?_erase, hv]
    simp [Option.filter, hp v hv]
  refine ⟨?_, { Kept.refl w with visits := Rows.follows_erase VisitKept.refl _ _ },
    { Within.refl M w with visit := fun id v hd => ?_ }⟩
  · exact {
      tables := hw.tables
      visits := fun id v hv => hw.visits id v (Rows.of_erase hv).1
      sessions := fun id s hs => ⟨(hw.sessions id s hs).1, fun visitId hv =>
        hleft ((hw.sessions id s hs).2 visitId hv) (hsessions id s hs visitId hv)⟩
      orders := fun id o ho => ⟨(hw.orders id o ho).1, fun visitId hv =>
        hleft ((hw.orders id o ho).2 visitId hv) (horders id o ho visitId hv)⟩
      items := hw.items
      edits := hw.edits
      deliveries := hw.deliveries
      staff := hw.staff
      keys := hw.keys
      news := fun e he => TrueOf.of_orders (hw.news e he) rfl }
  · obtain ⟨hv, hp⟩ := Rows.differs_erase hd
    exact hM id v hv hp

/-- Sessions go that no order refers to. -/
theorem step_eraseSessions {p : Id → TableSession → Bool}
    (horders : ∀ id o, w.orders.get? id = some o →
      ∀ s, w.tableSessions.get? o.sessionId = some s → p o.sessionId s = false)
    (hM : ∀ id s, w.tableSessions.get? id = some s → p id s = true → M .session (s.addr id)) :
    Step M w { w with tableSessions := w.tableSessions.erase p } := by
  refine ⟨?_, { Kept.refl w with sessions := Rows.follows_erase SessionKept.refl _ _ },
    { Within.refl M w with session := fun id s hd => ?_ }⟩
  · exact {
      tables := hw.tables
      visits := hw.visits
      sessions := fun id s hs => hw.sessions id s (Rows.of_erase hs).1
      orders := fun id o ho => by
        obtain ⟨⟨s, hs, htable, hvenue⟩, hvisit⟩ := hw.orders id o ho
        refine ⟨⟨s, ?_, htable, hvenue⟩, hvisit⟩
        show (w.tableSessions.erase p).get? o.sessionId = some s
        rw [Rows.get?_erase, hs]
        simp [Option.filter, horders id o ho s hs]
      items := hw.items
      edits := hw.edits
      deliveries := hw.deliveries
      staff := hw.staff
      keys := hw.keys
      news := fun e he => TrueOf.of_orders (hw.news e he) rfl }
  · obtain ⟨hs, hp⟩ := Rows.differs_erase hd
    exact hM id s hs hp

/-- A table goes that no visit and no session is at. -/
theorem step_eraseTable {tableId : Id}
    (hvisits : ∀ id v, w.tableVisits.get? id = some v → v.tableId ≠ tableId)
    (hsessions : ∀ id s, w.tableSessions.get? id = some s → s.tableId ≠ tableId)
    (hM : ∀ t, w.tables.get? tableId = some t → M .table (t.addr tableId)) :
    Step M w { w with tables := w.tables.erase (fun k _ => k == tableId) } := by
  have hleft : ∀ {k venueId}, w.TableThere k venueId → k ≠ tableId →
      ({ w with tables := w.tables.erase (fun k _ => k == tableId) } : World).TableThere k venueId := by
    rintro k venueId ⟨t, ht, hvenue⟩ hk
    refine ⟨t, ?_, hvenue⟩
    show (w.tables.erase _).get? k = some t
    rw [Rows.get?_erase, ht]
    simp [Option.filter, hk]
  refine ⟨?_, { Kept.refl w with
      tables := Rows.follows_erase TableKept.refl w.tables (fun k _ => k == tableId) },
    { Within.refl M w with table := fun id t hd => ?_ }⟩
  · exact {
      tables := fun id t ht => hw.tables id t (Rows.of_erase ht).1
      visits := fun id v hv => hleft (hw.visits id v hv) (hvisits id v hv)
      sessions := fun id s hs => ⟨hleft (hw.sessions id s hs).1 (hsessions id s hs),
        (hw.sessions id s hs).2⟩
      orders := hw.orders
      items := hw.items
      edits := hw.edits
      deliveries := hw.deliveries
      staff := hw.staff
      keys := hw.keys
      news := fun e he => TrueOf.of_orders (hw.news e he) rfl }
  · obtain ⟨ht, hp⟩ := Rows.differs_erase hd
    obtain rfl : id = tableId := beq_iff_eq.mp hp
    exact hM t ht

end

/-! ## Fit calls -/

/-- **A fit call**, of a request that may touch what `M` allows. -/
def Call.Fits (w : World) (M : Kind → Addr → Prop) : Call → Prop
  | .query _ | .orderAttemptCreate _ | .background _ | .limiter _ | .accountCacheSet _ _
  | .accountCacheDelete _ => True
  | .publish e => e.TrueOf w ∧ M .news e.addr
  | .orderUpdate id data => ∀ o, w.orders.get? id = some o →
    OrderKept o (data o) ∧ M .order (o.addr id)
  | .orderUpdateMany cond data => ∀ id o, w.orders.get? id = some o → cond id o = true →
    OrderKept o (data o) ∧ M .order (o.addr id)
  | .orderCreate data _ =>
    (∀ s, w.tableSessions.get? data.sessionId = some s →
      s.tableId = data.tableId ∧ s.venueId = data.venueId)
    ∧ (∀ visitId v, data.visitId = some visitId → w.tableVisits.get? visitId = some v →
      v.tableId = data.tableId)
    ∧ ∀ k ∈ [Kind.order, .item], ∀ id,
      M k ⟨data.venueId, some data.tableId, some data.sessionId, some id, none⟩
  | .orderEditTransaction orderId _ edits _ _ =>
    (∀ e ∈ edits, e.toQty ≤ e.fromQty
      ∧ ∀ i, w.orderItems.get? e.id = some i → i.orderId = orderId)
    ∧ ∀ o, w.orders.get? orderId = some o → ∀ k ∈ [Kind.order, .item, .edit], M k (o.addr orderId)
  | .tableVisitCreate tableId venueId =>
    (∀ t, w.tables.get? tableId = some t → t.venueId = venueId)
    ∧ M .visit { venue := venueId, table := some tableId }
  | .tableVisitDelete id => ∀ v, w.tableVisits.get? id = some v →
    ∀ k ∈ [Kind.visit, .session, .order], ∀ session order,
      M k { venue := v.venueId, table := some v.tableId, session := session, order := order }
  | .tableVisitUpdate id data => ∀ v, w.tableVisits.get? id = some v →
    VisitKept v (data w.now v) ∧ M .visit v.addr
  | .settleTransaction visitId data orderIds _ sessionIds =>
    (∀ v, w.tableVisits.get? visitId = some v → VisitKept v (data w.now v) ∧ M .visit v.addr)
    ∧ (∀ id ∈ orderIds, ∀ o, w.orders.get? id = some o → M .order (o.addr id))
    ∧ ∀ id ∈ sessionIds, ∀ s, w.tableSessions.get? id = some s → M .session (s.addr id)
  | .tableSessionCreate data =>
    (∀ t, w.tables.get? data.tableId = some t → t.venueId = data.venueId)
    ∧ (∀ v, w.tableVisits.get? data.visitId = some v → v.tableId = data.tableId)
    ∧ ∀ id, M .session { venue := data.venueId, table := some data.tableId, session := some id }
  | .tableSessionUpdate id data => ∀ s, w.tableSessions.get? id = some s →
    SessionKept s (data w.now s) ∧ M .session (s.addr id)
  | .tableSessionUpdateMany cond data => ∀ id s, w.tableSessions.get? id = some s →
    cond id s = true → SessionKept s (data w.now s) ∧ M .session (s.addr id)
  | .posDeliveryCreate data =>
    (∀ o, w.orders.get? data.orderId = some o → o.venueId = data.venueId)
    ∧ M .delivery { venue := data.venueId, order := some data.orderId }
  | .posDeliveryUpdate id data => ∀ d, w.posDeliveries.get? id = some d →
    DeliveryKept d (data d) ∧ M .delivery d.addr
  | .posDeliveryUpdateMany cond data => ∀ id d, w.posDeliveries.get? id = some d →
    cond w.now id d = true → DeliveryKept d (data d) ∧ M .delivery d.addr
  | .tableCreate data => ∀ id, M .table { venue := data.venueId, table := some id }
  | .tableUpdate id data => ∀ t, w.tables.get? id = some t →
    TableKept t (data t) ∧ M .table (t.addr id)
  | .regenerateTransaction tableId sessionIds =>
    (∀ t, w.tables.get? tableId = some t → M .table (t.addr tableId))
    ∧ ∀ id ∈ sessionIds, ∀ s, w.tableSessions.get? id = some s → M .session (s.addr id)
  | .rotateTransaction venueId _ sessionIds =>
    M .venue { venue := venueId } ∧ (∀ id, M .table { venue := venueId, table := some id })
    ∧ ∀ id ∈ sessionIds, ∀ s, w.tableSessions.get? id = some s → M .session (s.addr id)
  | .staffUserCreate data => ∀ id, M .staff { venue := data.venueId, account := some id }
  | .staffUserUpdate id data => ∀ u, w.staffUsers.get? id = some u →
    StaffKept u (data u) ∧ M .staff (u.addr id)

/-- A correction is of lines of its order. -/
def Call.OwnLines (w : World) : Call → Prop
  | .orderEditTransaction orderId _ edits _ _ =>
    ∀ e ∈ edits, ∀ i, w.orderItems.get? e.id = some i → i.orderId = orderId
  | _ => True

theorem Fits.ownLines {op : Call} (h : op.Fits w M) : op.OwnLines w := by
  cases op with
  | orderEditTransaction orderId statuses edits totalKurus entry =>
    exact fun e he => (h.1 e he).2
  | _ => exact trivial

/-- A revoked session is the same session. -/
theorem SessionKept.revoke (now : Time) (s : TableSession) : SessionKept s (revoke now s) where
  venueId := rfl
  tableId := rfl
  token := rfl
  visitId := .inl rfl
  createdAt := rfl
  expiresAt := rfl
  revokedAt _ := rfl

theorem OrderKept.markPaid (provider : PaymentMethod) (o : Order) :
    OrderKept o (markPaid provider o) := ⟨rfl, rfl, rfl, .inl rfl, rfl, rfl, rfl⟩

theorem TableKept.bumpQr (t : Table) : TableKept t (World.bumpQr t) := ⟨rfl, rfl, Nat.le_succ _⟩

/-- What is not missing is there. -/
theorem there_of_isNone {α : Type} {x : Option α} (h : ¬ x.isNone = true) : ∃ a, x = some a :=
  Option.ne_none_iff_exists'.mp (fun hnone => h (hnone ▸ rfl))

/-- The venue that a new row refers to is there. -/
theorem venue_there {id : Id} (h : w.noVenue id = false) : ∃ v, w.venues.get? id = some v :=
  there_of_isNone (Bool.not_eq_true _ ▸ h)

theorem table_there {id : Id} (h : w.noTable id = false) : ∃ t, w.tables.get? id = some t :=
  there_of_isNone (Bool.not_eq_true _ ▸ h)

section

variable (hw : Coherent w)
include hw

/-- The sessions named are revoked. -/
theorem step_revoke {sessionIds : List Id}
    (hM : ∀ id ∈ sessionIds, ∀ s, w.tableSessions.get? id = some s → M .session (s.addr id)) :
    Step M w { w with
      tableSessions := w.tableSessions.update (fun id _ => sessionIds.contains id) (revoke w.now) } :=
  step_sessions hw (fun id s hs hp =>
    ⟨SessionKept.revoke w.now s, hM id (List.contains_iff_mem.mp hp) s hs⟩)

theorem step_orderCreate {c : Choice} {data : NewOrder} {items : List NewOrderItem}
    {x : Except DbError (Id × ℕ)} (hfit : Call.Fits w M (.orderCreate data items))
    (hd : w.dangling (.orderCreate data items) = false) (hx : w.orderCreate c data items = (w', x)) :
    Step M w w' := by
  obtain ⟨hsession, hvisit, hM⟩ := hfit
  unfold World.orderCreate at hx
  dsimp only at hx
  split at hx
  · cases hx
    exact Step.refl hw
  · split at hx
    · cases hx
      exact Step.refl hw
    · split at hx
      · cases hx
        exact Step.refl hw
      · split at hx
        · cases hx
          exact Step.refl hw
        · next hthere =>
          split at hx
          · cases hx
            exact Step.refl hw
          · cases hx
            have hs : (w.tableSessions.get? data.sessionId).isNone = false :=
              (Bool.or_eq_false_iff.mp hd).2
            obtain ⟨s, hs⟩ := there_of_isNone (Bool.not_eq_true _ ▸ hs)
            obtain ⟨htable, hvenue⟩ := hsession s hs
            have horder := step_newOrder hw (M := M)
              (o := ⟨data.venueId, data.tableId, data.sessionId, data.visitId, data.number,
                .received, none, data.totalKurus, .unpaid, none, data.idempotencyKey, w.now⟩)
              ⟨s, hs, htable, hvenue⟩ (fun visitId hv => by
                dsimp only at hv
                rw [hv, Option.any_some, Bool.not_eq_true, Option.isNone_eq_false_iff] at hthere
                obtain ⟨v, hget⟩ := Option.isSome_iff_exists.mp hthere
                exact ⟨v, hget, hvisit visitId v hv hget⟩)
              (hM .order (by decide) _)
            refine horder.trans hw (step_newItems horder.coherent
              (Rows.get?_create_next w.orders _) (fun i hi => ?_) (hM .item (by decide) _))
            obtain ⟨line, _, rfl⟩ := List.mem_map.mp hi
            rfl

theorem step_applyEdits {orderId : Id} {edits : List LineEdit} {items : Rows OrderItem}
    (hedits : ∀ e ∈ edits, e.toQty ≤ e.fromQty
      ∧ ∀ i, w.orderItems.get? e.id = some i → i.orderId = orderId)
    (hM : ∀ o, w.orders.get? orderId = some o → M .item (o.addr orderId))
    (h : World.applyEdits w.now edits w.orderItems = some items) :
    Step M w { w with orderItems := items } := by
  induction edits generalizing w with
  | nil =>
    cases h
    exact Step.refl hw
  | cons e es ih =>
    unfold World.applyEdits at h
    split at h
    · cases h
    · obtain ⟨hle, hline⟩ := hedits e List.mem_cons_self
      have hstep := step_items hw (M := M) (p := e.hits) (f := e.apply w.now) (fun id i hi hp => by
        simp only [LineEdit.hits, Bool.and_eq_true, beq_iff_eq, Option.isNone_iff_eq_none] at hp
        obtain ⟨⟨rfl, hqty⟩, hlive⟩ := hp
        refine ⟨?_, fun o ho => ?_⟩
        · unfold LineEdit.apply
          split
          · next hzero =>
            exact ⟨rfl, .inl rfl, rfl, rfl, rfl, rfl, Nat.zero_le _, fun hv => by
              rw [hlive] at hv
              cases hv⟩
          · exact ⟨rfl, .inl rfl, rfl, rfl, rfl, rfl, hqty ▸ hle, fun hv => by
              rw [hlive] at hv
              cases hv⟩
        · rw [hline i hi] at ho ⊢
          exact hM o ho)
      refine hstep.trans hw (ih hstep.coherent (fun e' he' => ?_) hM h)
      refine ⟨(hedits e' (List.mem_cons_of_mem _ he')).1, fun i hi => ?_⟩
      have hget : (w.orderItems.update e.hits (e.apply w.now)).get? e'.id = some i := hi
      obtain ⟨u, hu⟩ := Rows.of_update hget
      rw [(hstep.kept.items.same hu hi).orderId]
      exact (hedits e' (List.mem_cons_of_mem _ he')).2 u hu

theorem step_orderEdit {orderId : Id} {statuses : List OrderStatus} {edits : List LineEdit}
    {totalKurus : ℤ} {entry : NewOrderEdit} {b : Bool}
    (hfit : Call.Fits w M (.orderEditTransaction orderId statuses edits totalKurus entry))
    (hx : w.orderEditTransaction orderId statuses edits totalKurus entry = (w', b)) :
    Step M w w' := by
  obtain ⟨hedits, hM⟩ := hfit
  unfold World.orderEditTransaction at hx
  split at hx
  · cases hx
    exact Step.refl hw
  · next items hitems =>
    split at hx
    · cases hx
      exact Step.refl hw
    · next hcount =>
      cases hx
      obtain ⟨id, o, ho, hp⟩ := Rows.exists_of_count hcount
      obtain rfl : id = orderId := beq_iff_eq.mp (Bool.and_eq_true_iff.mp hp).1
      -- the lines, then the total, then the record
      have h₁ := step_applyEdits hw (M := M) hedits (fun o ho => hM o ho .item (by decide)) hitems
      have h₂ := step_orders h₁.coherent (M := M) (p := World.editable id statuses)
        (f := fun o => { o with totalKurus := totalKurus }) (fun k o' ho' hp' => by
          obtain rfl : k = id := beq_iff_eq.mp (Bool.and_eq_true_iff.mp hp').1
          exact ⟨⟨rfl, rfl, rfl, .inl rfl, rfl, rfl, rfl⟩, hM o' ho' .order (by decide)⟩)
      obtain ⟨o', ho', hsame⟩ := (h₁.trans hw h₂).kept.orders.found
        (h₁.trans hw h₂).kept.ordersStay ho
      refine (h₁.trans hw h₂).trans hw (step_newEdit h₂.coherent (o := o') ho' ?_)
      show M .edit (o'.addr id)
      rw [hsame.addr]
      exact hM o ho .edit (by decide)

theorem step_visitDelete {id : Id} {x : Except DbError Unit}
    (hfit : Call.Fits w M (.tableVisitDelete id)) (hx : w.tableVisitDelete id = (w', x)) :
    Step M w w' := by
  unfold World.tableVisitDelete at hx
  split at hx
  · cases hx
    exact Step.refl hw
  · next v hv =>
    cases hx
    have hM := hfit v hv
    -- the references go before the visit does
    have h₁ := step_sessions hw (M := M) (p := fun _ s => s.visitId == some id)
      (f := fun s => { s with visitId := none }) (fun k s hs hp => by
        refine ⟨⟨rfl, rfl, rfl, .inr rfl, rfl, rfl, fun h => h⟩, ?_⟩
        obtain ⟨htable, hvenue⟩ := hw.session_at hs (beq_iff_eq.mp hp) hv
        unfold TableSession.addr
        rw [htable, hvenue]
        exact hM .session (by decide) (some k) none)
    have h₂ := step_orders h₁.coherent (M := M) (p := fun _ o => o.visitId == some id)
      (f := fun o => { o with visitId := none }) (fun k o ho hp => by
        refine ⟨⟨rfl, rfl, rfl, .inr rfl, rfl, rfl, rfl⟩, ?_⟩
        obtain ⟨htable, hvenue⟩ := hw.order_at ho (beq_iff_eq.mp hp) hv
        unfold Order.addr
        rw [htable, hvenue]
        exact hM .order (by decide) (some o.sessionId) (some k))
    refine (h₁.trans hw h₂).trans hw (step_eraseVisits h₂.coherent (fun k s hs visitId hvisit v' _ => ?_)
      (fun k o ho visitId hvisit v' _ => ?_) (fun k v' hv' hp => ?_))
    · have hget : (w.tableSessions.update _ _).get? k = some s := hs
      rw [Rows.get?_update] at hget
      obtain ⟨u, _, rfl⟩ := Option.map_eq_some_iff.mp hget
      by_cases hu : (u.visitId == some id) = true
      · rw [if_pos hu] at hvisit
        cases hvisit
      · rw [if_neg hu] at hvisit
        rw [hvisit] at hu
        simpa using hu
    · have hget : (w.orders.update _ _).get? k = some o := ho
      rw [Rows.get?_update] at hget
      obtain ⟨u, _, rfl⟩ := Option.map_eq_some_iff.mp hget
      by_cases hu : (u.visitId == some id) = true
      · rw [if_pos hu] at hvisit
        cases hvisit
      · rw [if_neg hu] at hvisit
        rw [hvisit] at hu
        simpa using hu
    · obtain rfl : k = id := beq_iff_eq.mp hp
      cases hv.symm.trans hv'
      exact hM .visit (by decide) none none

theorem step_settle {visitId : Id} {data : Time → TableVisit → TableVisit}
    {orderIds sessionIds : List Id} {provider : PaymentMethod} {n : ℕ}
    (hfit : Call.Fits w M (.settleTransaction visitId data orderIds provider sessionIds))
    (hx : w.settleTransaction visitId data orderIds provider sessionIds = (w', n)) :
    Step M w w' := by
  obtain ⟨hvisit, horders, hsessions⟩ := hfit
  rcases settleTransaction_cases hx with ⟨rfl, _⟩ | ⟨v, _, hv, _, rfl⟩
  · exact Step.refl hw
  · have h₁ := step_visits hw (M := M) (p := World.closable visitId) (f := data w.now)
      (fun id u hu hp => by
        obtain rfl : id = visitId := beq_iff_eq.mp (Bool.and_eq_true_iff.mp hp).1
        exact hvisit u hu)
    have h₂ := step_orders h₁.coherent (M := M) (p := fun id _ => orderIds.contains id)
      (f := markPaid provider) (fun id o ho hp =>
        ⟨OrderKept.markPaid provider o, horders id (List.contains_iff_mem.mp hp) o ho⟩)
    exact (h₁.trans hw h₂).trans hw (step_revoke h₂.coherent hsessions)

theorem step_regenerate {tableId : Id} {sessionIds : List Id} {x : Except DbError Unit}
    (hfit : Call.Fits w M (.regenerateTransaction tableId sessionIds))
    (hx : w.regenerateTransaction tableId sessionIds = (w', x)) : Step M w w' := by
  obtain ⟨htable, hsessions⟩ := hfit
  unfold World.regenerateTransaction at hx
  split at hx
  · cases hx
    exact Step.refl hw
  · next t ht =>
    cases hx
    have h₁ := step_tables hw (M := M) (p := fun k _ => k == tableId) (f := World.bumpQr)
      (fun k u hu hp => by
        obtain rfl : k = tableId := beq_iff_eq.mp hp
        exact ⟨TableKept.bumpQr u, htable u hu⟩)
    exact h₁.trans hw (step_revoke h₁.coherent hsessions)

theorem step_rotate {venueId : Id} {secret : Text} {sessionIds : List Id} {x : Except DbError ℕ}
    (hfit : Call.Fits w M (.rotateTransaction venueId secret sessionIds))
    (hx : w.rotateTransaction venueId secret sessionIds = (w', x)) : Step M w w' := by
  obtain ⟨hvenue, htable, hsessions⟩ := hfit
  unfold World.rotateTransaction at hx
  split at hx
  · cases hx
    exact Step.refl hw
  · cases hx
    have h₁ := step_venue hw (f := fun v => { v with qrSecret := secret }) hvenue
    have h₂ := step_tables h₁.coherent (M := M) (p := fun _ t => t.venueId == venueId)
      (f := World.bumpQr) (fun k t _ hp => by
        refine ⟨TableKept.bumpQr t, ?_⟩
        unfold Table.addr
        rw [beq_iff_eq.mp hp]
        exact htable k)
    exact (h₁.trans hw h₂).trans hw (step_revoke h₂.coherent hsessions)

/-- **What a fit call does**: the rows stay coherent, history is kept, and nothing is touched
but what the request may touch. -/
theorem Fits.step {c : Choice} {op : Call} (hfit : op.Fits w M)
    (hd : w.dangling op = false) : Step M w (World.exec c op w).1 := by
  cases op with
  | query q => exact Step.refl hw
  | orderAttemptCreate row =>
    exact ⟨hw.follow { Kept.refl w with } (AllStay.of_eq rfl rfl rfl)
      { NewFit.refl w with keys := fun _ _ h => .inl h }, { Kept.refl w with },
      { Within.refl M w with }⟩
  | background job => exact Step.refl hw
  | limiter f =>
    exact ⟨hw.follow { Kept.refl w with } (AllStay.of_eq rfl rfl rfl)
      { NewFit.refl w with keys := fun _ _ h => .inl h }, { Kept.refl w with },
      { Within.refl M w with }⟩
  | accountCacheSet id state =>
    exact ⟨hw.follow { Kept.refl w with } (AllStay.of_eq rfl rfl rfl)
      { NewFit.refl w with keys := fun _ _ h => .inl h }, { Kept.refl w with },
      { Within.refl M w with }⟩
  | accountCacheDelete id =>
    exact ⟨hw.follow { Kept.refl w with } (AllStay.of_eq rfl rfl rfl)
      { NewFit.refl w with keys := fun _ _ h => .inl h }, { Kept.refl w with },
      { Within.refl M w with }⟩
  | publish e => exact step_publish hw hfit.1 hfit.2
  | orderUpdate id data =>
    show Step M w (w.orderUpdate id data).1
    unfold World.orderUpdate
    split
    · exact Step.refl hw
    · exact step_orders hw (fun k o ho hp => by
        obtain rfl : k = id := beq_iff_eq.mp hp
        exact hfit o ho)
  | orderUpdateMany cond data => exact step_orders hw hfit
  | orderCreate data items => exact step_orderCreate hw hfit hd rfl
  | orderEditTransaction orderId statuses edits totalKurus entry =>
    exact step_orderEdit hw hfit rfl
  | tableVisitCreate tableId venueId =>
    obtain ⟨hvenue, hM⟩ := hfit
    obtain ⟨t, ht⟩ := table_there (Bool.or_eq_false_iff.mp hd).2
    exact step_newVisit hw ⟨t, ht, hvenue t ht⟩ hM
  | tableVisitDelete id => exact step_visitDelete hw hfit rfl
  | tableVisitUpdate id data =>
    show Step M w (w.tableVisitUpdate id data).1
    unfold World.tableVisitUpdate
    split
    · exact Step.refl hw
    · exact step_visits hw (fun k v hv hp => by
        obtain rfl : k = id := beq_iff_eq.mp hp
        exact hfit v hv)
  | settleTransaction visitId data orderIds provider sessionIds =>
    exact step_settle hw hfit rfl
  | tableSessionCreate data =>
    obtain ⟨hvenue, hvisit, hM⟩ := hfit
    show Step M w (w.tableSessionCreate data).1
    unfold World.tableSessionCreate
    split
    · exact Step.refl hw
    · next hthere =>
      obtain ⟨t, ht⟩ := table_there (Bool.or_eq_false_iff.mp hd).2
      obtain ⟨v, hv⟩ := there_of_isNone hthere
      refine step_newSession hw ⟨t, ht, hvenue t ht⟩ (fun visitId heq => ?_) (hM _)
      cases heq
      exact ⟨v, hv, hvisit v hv⟩
  | tableSessionUpdate id data =>
    show Step M w (w.tableSessionUpdate id data).1
    unfold World.tableSessionUpdate
    split
    · exact Step.refl hw
    · exact step_sessions hw (fun k s hs hp => by
        obtain rfl : k = id := beq_iff_eq.mp hp
        exact hfit s hs)
  | tableSessionUpdateMany cond data => exact step_sessions hw hfit
  | posDeliveryCreate data =>
    obtain ⟨hvenue, hM⟩ := hfit
    have hthere : (w.orders.get? data.orderId).isNone = false := (Bool.or_eq_false_iff.mp hd).2
    obtain ⟨o, ho⟩ := there_of_isNone (Bool.not_eq_true _ ▸ hthere)
    exact step_newDelivery hw ⟨o, ho, hvenue o ho⟩ hM
  | posDeliveryUpdate id data =>
    show Step M w (w.posDeliveryUpdate id data).1
    unfold World.posDeliveryUpdate
    split
    · exact Step.refl hw
    · exact step_deliveries hw (fun k d hrow hp => by
        obtain rfl : k = id := beq_iff_eq.mp hp
        exact hfit d hrow)
  | posDeliveryUpdateMany cond data => exact step_deliveries hw hfit
  | tableCreate data =>
    show Step M w (w.tableCreate data).1
    unfold World.tableCreate
    split
    · exact Step.refl hw
    · split
      · exact Step.refl hw
      · next hthere =>
        exact step_newTable hw (there_of_isNone hthere) (hfit _)
  | tableUpdate id data =>
    show Step M w (w.tableUpdate id data).1
    unfold World.tableUpdate
    split
    · exact Step.refl hw
    · exact step_tables hw (fun k t ht hp => by
        obtain rfl : k = id := beq_iff_eq.mp hp
        exact hfit t ht)
  | regenerateTransaction tableId sessionIds => exact step_regenerate hw hfit rfl
  | rotateTransaction venueId secret sessionIds => exact step_rotate hw hfit rfl
  | staffUserCreate data =>
    show Step M w (w.staffUserCreate data).1
    unfold World.staffUserCreate
    split
    · exact Step.refl hw
    · exact step_newStaff hw (venue_there hd) (hfit _)
  | staffUserUpdate id data =>
    show Step M w (w.staffUserUpdate id data).1
    unfold World.staffUserUpdate
    split
    · exact Step.refl hw
    · exact step_staff hw (fun k u hu hp => by
        obtain rfl : k = id := beq_iff_eq.mp hp
        exact hfit u hu)

/-! ## The rest of the application -/

/-- What is no row of a kind may change as it likes. -/
theorem step_aside {now : Time} {menuItems : Rows MenuItem} {orderAttempts : Rows OrderAttempt}
    {accountCache : Id → Option AccountState} {windows : Windows} (hnow : w.now ≤ now) :
    Step M w { w with
      now := now
      menuItems := menuItems
      orderAttempts := orderAttempts
      accountCache := accountCache
      windows := windows } :=
  ⟨hw.follow { Kept.refl w with now := hnow } (AllStay.of_eq rfl rfl rfl)
    { NewFit.refl w with keys := fun _ _ h => .inl h }, { Kept.refl w with now := hnow },
    { Within.refl M w with }⟩

/-- So may the keys, as long as their venues are there. -/
theorem step_keys {keys : Rows BridgeKey} (hkeys : ∀ id k, keys.get? id = some k →
    w.bridgeKeys.get? id = some k ∨ ∃ v, w.venues.get? k.venueId = some v) :
    Step M w { w with bridgeKeys := keys } :=
  ⟨hw.follow { Kept.refl w with } (AllStay.of_eq rfl rfl rfl) { NewFit.refl w with keys := hkeys },
    { Kept.refl w with }, { Within.refl M w with }⟩

omit hw in
/-- A table that is not held has no orders, and none of its sessions has. -/
theorem tableHeld_false {id : Id} (h : w.tableHeld id = false) {k : Id} {o : Order}
    (ho : w.orders.get? k = some o) : o.tableId ≠ id
      ∧ ∀ s, w.tableSessions.get? o.sessionId = some s → s.tableId ≠ id := by
  unfold World.tableHeld at h
  have hnot := Rows.find?_eq_none (Option.not_isSome_iff_eq_none.mp (Bool.not_eq_true _ ▸ h)) ho
  rw [Bool.or_eq_false_iff] at hnot
  refine ⟨fun heq => ?_, fun s hs heq => ?_⟩
  · rw [heq, beq_self_eq_true] at hnot
    exact absurd hnot.1 (by decide)
  · rw [hs, Option.any_some, heq, beq_self_eq_true] at hnot
    exact absurd hnot.2 (by decide)

omit hw in
/-- What is left of a reference is the reference, or nothing. -/
theorem filter_lost {α : Type} (x : Option α) (p : α → Bool) :
    x.filter p = x ∨ x.filter p = none := by
  cases x with
  | none => exact .inl rfl
  | some a =>
    unfold Option.filter
    by_cases hp : p a = true
    · exact .inl (if_pos hp)
    · exact .inr (if_neg hp)

omit hw in
/-- A reference that is left is not to a visit of the table. -/
theorem leaves_elsewhere {id visitId : Id} {x : Option Id} (h : w.leaves id x = some visitId)
    {v : TableVisit} (hv : w.tableVisits.get? visitId = some v) : (v.tableId == id) = false := by
  have hp := (Option.filter_eq_some_iff.mp h).2
  rw [hv] at hp
  simpa using hp

/-- **A table is dropped**: what refers to its visits lets go of them first, then its sessions
go, its visits, and the table. -/
theorem step_dropTable (id : Id) : Step (fun _ _ => True) w (w.dropTable id) := by
  unfold World.dropTable
  split
  · exact Step.refl hw
  · next hheld =>
    have hfree := fun {k : Id} {o : Order} (ho : w.orders.get? k = some o) =>
      tableHeld_false (Bool.not_eq_true _ ▸ hheld) ho
    let orders := w.orders.update (fun _ _ => true)
      (fun o => { o with visitId := w.leaves id o.visitId })
    let others := w.tableSessions.erase (fun _ s => s.tableId == id)
    let sessions := others.update (fun _ _ => true)
      (fun s => { s with visitId := w.leaves id s.visitId })
    have horders : ∀ k o, orders.get? k = some o → ∃ u, w.orders.get? k = some u
        ∧ o = { u with visitId := w.leaves id u.visitId } := by
      intro k o ho
      rw [Rows.get?_update] at ho
      obtain ⟨u, hu, rfl⟩ := Option.map_eq_some_iff.mp ho
      exact ⟨u, hu, rfl⟩
    have hsessions : ∀ k s, sessions.get? k = some s → ∃ u, others.get? k = some u
        ∧ s = { u with visitId := w.leaves id u.visitId } := by
      intro k s hs
      rw [Rows.get?_update] at hs
      obtain ⟨u, hu, rfl⟩ := Option.map_eq_some_iff.mp hs
      exact ⟨u, hu, rfl⟩
    have h₁ : Step (fun _ _ => True) w { w with orders := orders } :=
      step_orders hw (fun k o _ _ => ⟨⟨rfl, rfl, rfl, filter_lost _ _, rfl, rfl, rfl⟩, trivial⟩)
    have h₂ : Step (fun _ _ => True) w { w with orders := orders, tableSessions := others } := by
      refine h₁.trans hw (step_eraseSessions h₁.coherent (fun k o ho s hs => ?_)
        (fun _ _ _ _ => trivial))
      obtain ⟨u, hu, rfl⟩ := horders k o ho
      exact beq_false_of_ne ((hfree hu).2 s hs)
    have h₃ : Step (fun _ _ => True) w { w with orders := orders, tableSessions := sessions } :=
      h₂.trans hw (step_sessions h₂.coherent (fun k s _ _ =>
        ⟨⟨rfl, rfl, rfl, filter_lost _ _, rfl, rfl, fun h => h⟩, trivial⟩))
    have h₄ : Step (fun _ _ => True) w { w with
        tableVisits := w.tableVisits.erase (fun _ v => v.tableId == id)
        orders := orders
        tableSessions := sessions } := by
      refine h₃.trans hw (step_eraseVisits h₃.coherent (fun k s hs visitId hv v hget => ?_)
        (fun k o ho visitId hv v hget => ?_) (fun _ _ _ _ => trivial))
      · obtain ⟨u, _, rfl⟩ := hsessions k s hs
        exact leaves_elsewhere hv hget
      · obtain ⟨u, _, rfl⟩ := horders k o ho
        exact leaves_elsewhere hv hget
    refine h₄.trans hw (step_eraseTable h₄.coherent (fun k v hv => ?_) (fun k s hs => ?_)
      (fun _ _ => trivial))
    · exact ne_of_beq_false (Rows.of_erase hv).2
    · obtain ⟨u, hu, rfl⟩ := hsessions k s hs
      exact ne_of_beq_false (Rows.of_erase hu).2

theorem step_prune : Step (fun _ _ => True) w w.pruneRetainedData.1 := by
  have h₁ := step_eraseSessions hw (M := fun _ _ => True) (p := w.spent)
    (fun id o ho s _ => by
      unfold World.spent
      rw [Bool.and_eq_false_iff]
      refine .inr (Bool.eq_false_iff.mpr (fun hnone => ?_))
      have := Rows.find?_eq_none (Option.isNone_iff_eq_none.mp hnone) ho
      rw [beq_self_eq_true] at this
      cases this) (fun _ _ _ _ => trivial)
  exact h₁.trans hw (step_aside h₁.coherent (le_refl _))

theorem step_menu (items : Rows MenuItem) : Step (fun _ _ => True) w (w.withMenu items) := by
  have h₁ := step_items hw (M := fun _ _ => True) (p := fun _ _ => true)
    (f := fun i => { i with itemId := i.itemId.filter (fun d => (items.get? d).isSome) })
    (fun id i _ _ => ⟨⟨rfl, filter_lost _ _, rfl, rfl, rfl, rfl, le_refl _, fun _ => ⟨rfl, rfl⟩⟩,
      fun _ _ => trivial⟩)
  exact h₁.trans hw (step_aside h₁.coherent (le_refl _))

/-- **The rest of the application** keeps the rows coherent, and history. -/
theorem move_keeps (m : HouseMove) : Coherent (m.apply w) ∧ Kept w (m.apply w) := by
  have hstep : Step (fun _ _ => True) w (m.apply w) := by
    cases m with
    | tick ms => exact step_aside hw (Int.le_add_of_nonneg_right (Int.natCast_nonneg ms))
    | crash => exact step_aside hw (le_refl _)
    | prune => exact step_prune hw
    | dropTable id => exact step_dropTable hw id
    | settings venueId name currency posAdapter =>
      have h₁ : Step (fun _ _ => True) w { w with
          venues := w.venues.updateAt venueId (venueSettings name currency posAdapter) } :=
        step_venue hw trivial
      exact h₁.trans hw (step_publish h₁.coherent trivial trivial)
    | issueKey venueId keyHash =>
      show Step _ w (w.issueKey venueId keyHash)
      unfold World.issueKey
      split
      · exact Step.refl hw
      · split
        · exact Step.refl hw
        · next hthere =>
          refine step_keys hw (fun id k hk => ?_)
          rw [Rows.get?_create] at hk
          split at hk
          · cases hk
            exact .inr (there_of_isNone hthere)
          · exact .inl hk
    | withdrawKey venueId id => exact step_keys hw (fun k row hk => .inl (Rows.of_erase hk).1)
    | menu items => exact step_menu hw items
  exact ⟨hstep.coherent, hstep.kept⟩

end

end Masadan
