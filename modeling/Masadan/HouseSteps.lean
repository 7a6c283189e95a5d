import Masadan.House

/-!
# What each call does to the house

A call is *fit* when what it inserts agrees with what is there, what it updates keeps what
identifies a row, and every row it reaches is one the request may touch (`Call.Fits`). A fit
call keeps the rows coherent, rewrites no history, and touches nothing else
(`Fits.step`), and so do the moves of the rest of the application (`move_keeps`), each by a
lemma of its own. Whether a handler's calls are fit is the subject of
`Masadan.HouseHandlers`.
-/

namespace Masadan

/-! ## The same row -/

theorem TableKept.refl (t : Table) : TableKept t t := ⟨rfl, rfl, le_refl _⟩

theorem TableKept.trans {a b c : Table} (h : TableKept a b) (h' : TableKept b c) :
    TableKept a c :=
  ⟨h'.venueId.trans h.venueId, h'.code.trans h.code, h.qrVersion.trans h'.qrVersion⟩

theorem VisitKept.refl (v : TableVisit) : VisitKept v v := ⟨rfl, rfl, rfl⟩

theorem VisitKept.trans {a b c : TableVisit} (h : VisitKept a b) (h' : VisitKept b c) :
    VisitKept a c :=
  ⟨h'.venueId.trans h.venueId, h'.tableId.trans h.tableId, h'.openedAt.trans h.openedAt⟩

/-- What may be lost once, or was lost before. -/
theorem lost_trans {α : Type} {a b c : Option α} (h : b = a ∨ b = none) (h' : c = b ∨ c = none) :
    c = a ∨ c = none := by
  rcases h' with rfl | rfl
  · exact h
  · exact .inr rfl

theorem SessionKept.refl (s : TableSession) : SessionKept s s :=
  ⟨rfl, rfl, rfl, .inl rfl, rfl, rfl, id⟩

theorem SessionKept.trans {a b c : TableSession} (h : SessionKept a b) (h' : SessionKept b c) :
    SessionKept a c where
  venueId := h'.venueId.trans h.venueId
  tableId := h'.tableId.trans h.tableId
  token := h'.token.trans h.token
  visitId := lost_trans h.visitId h'.visitId
  createdAt := h'.createdAt.trans h.createdAt
  expiresAt := h'.expiresAt.trans h.expiresAt
  revokedAt hs := h'.revokedAt (h.revokedAt hs)

theorem OrderKept.refl (o : Order) : OrderKept o o := ⟨rfl, rfl, rfl, .inl rfl, rfl, rfl, rfl⟩

theorem OrderKept.trans {a b c : Order} (h : OrderKept a b) (h' : OrderKept b c) :
    OrderKept a c where
  venueId := h'.venueId.trans h.venueId
  tableId := h'.tableId.trans h.tableId
  sessionId := h'.sessionId.trans h.sessionId
  visitId := lost_trans h.visitId h'.visitId
  number := h'.number.trans h.number
  idempotencyKey := h'.idempotencyKey.trans h.idempotencyKey
  createdAt := h'.createdAt.trans h.createdAt

theorem ItemKept.refl (i : OrderItem) : ItemKept i i :=
  ⟨rfl, .inl rfl, rfl, rfl, rfl, rfl, le_refl _, fun _ => ⟨rfl, rfl⟩⟩

theorem ItemKept.trans {a b c : OrderItem} (h : ItemKept a b) (h' : ItemKept b c) :
    ItemKept a c where
  orderId := h'.orderId.trans h.orderId
  itemId := lost_trans h.itemId h'.itemId
  nameSnapshot := h'.nameSnapshot.trans h.nameSnapshot
  unitPriceKurus := h'.unitPriceKurus.trans h.unitPriceKurus
  note := h'.note.trans h.note
  modifiers := h'.modifiers.trans h.modifiers
  qty := h'.qty.trans h.qty
  voidedAt ha := by
    obtain ⟨hvoided, hqty⟩ := h.voidedAt ha
    obtain ⟨hvoided', hqty'⟩ := h'.voidedAt (hvoided ▸ ha)
    exact ⟨hvoided'.trans hvoided, hqty'.trans hqty⟩

theorem DeliveryKept.refl (d : PosDelivery) : DeliveryKept d d := ⟨rfl, rfl, rfl, rfl, rfl⟩

theorem DeliveryKept.trans {a b c : PosDelivery} (h : DeliveryKept a b) (h' : DeliveryKept b c) :
    DeliveryKept a c :=
  ⟨h'.venueId.trans h.venueId, h'.orderId.trans h.orderId, h'.adapter.trans h.adapter,
    h'.payload.trans h.payload, h'.createdAt.trans h.createdAt⟩

theorem StaffKept.refl (u : StaffUser) : StaffKept u u := ⟨rfl, rfl, le_refl _⟩

theorem StaffKept.trans {a b c : StaffUser} (h : StaffKept a b) (h' : StaffKept b c) :
    StaffKept a c :=
  ⟨h'.venueId.trans h.venueId, h'.email.trans h.email, h.tokenVersion.trans h'.tokenVersion⟩

theorem Kept.refl (w : World) : Kept w w where
  now := le_refl _
  venues := Rows.Stays.refl _
  tables := Rows.Follows.refl TableKept.refl _
  visits := Rows.Follows.refl VisitKept.refl _
  sessions := Rows.Follows.refl SessionKept.refl _
  orders := Rows.Follows.refl OrderKept.refl _
  ordersStay := Rows.Stays.refl _
  items := Rows.Follows.refl ItemKept.refl _
  itemsStay := Rows.Stays.refl _
  edits := Rows.Follows.refl (fun _ => rfl) _
  editsStay := Rows.Stays.refl _
  deliveries := Rows.Follows.refl DeliveryKept.refl _
  deliveriesStay := Rows.Stays.refl _
  staff := Rows.Follows.refl StaffKept.refl _
  staffStay := Rows.Stays.refl _
  published := List.prefix_rfl

theorem Kept.trans {a b c : World} (h : Kept a b) (h' : Kept b c) : Kept a c where
  now := h.now.trans h'.now
  venues := h.venues.trans h'.venues
  tables := h.tables.trans TableKept.trans h'.tables
  visits := h.visits.trans VisitKept.trans h'.visits
  sessions := h.sessions.trans SessionKept.trans h'.sessions
  orders := h.orders.trans OrderKept.trans h'.orders
  ordersStay := h.ordersStay.trans h'.ordersStay
  items := h.items.trans ItemKept.trans h'.items
  itemsStay := h.itemsStay.trans h'.itemsStay
  edits := h.edits.trans Eq.trans h'.edits
  editsStay := h.editsStay.trans h'.editsStay
  deliveries := h.deliveries.trans DeliveryKept.trans h'.deliveries
  deliveriesStay := h.deliveriesStay.trans h'.deliveriesStay
  staff := h.staff.trans StaffKept.trans h'.staff
  staffStay := h.staffStay.trans h'.staffStay
  published := h.published.trans h'.published

/-! ## The same place -/

theorem TableKept.addr {t t' : Table} (h : TableKept t t') (id : Id) : t'.addr id = t.addr id := by
  unfold Table.addr
  rw [h.venueId]

theorem VisitKept.addr {v v' : TableVisit} (h : VisitKept v v') : v'.addr = v.addr := by
  unfold TableVisit.addr
  rw [h.venueId, h.tableId]

theorem SessionKept.addr {s s' : TableSession} (h : SessionKept s s') (id : Id) :
    s'.addr id = s.addr id := by
  unfold TableSession.addr
  rw [h.venueId, h.tableId]

theorem OrderKept.addr {o o' : Order} (h : OrderKept o o') (id : Id) : o'.addr id = o.addr id := by
  unfold Order.addr
  rw [h.venueId, h.tableId, h.sessionId]

theorem DeliveryKept.addr {d d' : PosDelivery} (h : DeliveryKept d d') : d'.addr = d.addr := by
  unfold PosDelivery.addr
  rw [h.venueId, h.orderId]

theorem StaffKept.addr {u u' : StaffUser} (h : StaffKept u u') (id : Id) :
    u'.addr id = u.addr id := by
  unfold StaffUser.addr
  rw [h.venueId]

/-! ## Rows that agree stay so -/

/-- **The new rows agree** with what was there: each row of `w'` was a row of `w`, or what
it refers to is in `w`. -/
structure NewFit (w w' : World) : Prop where
  tables : ∀ id t, w'.tables.get? id = some t →
    (∃ u, w.tables.get? id = some u) ∨ ∃ v, w.venues.get? t.venueId = some v
  visits : ∀ id v, w'.tableVisits.get? id = some v →
    (∃ u, w.tableVisits.get? id = some u) ∨ w.TableThere v.tableId v.venueId
  sessions : ∀ id s, w'.tableSessions.get? id = some s →
    (∃ u, w.tableSessions.get? id = some u) ∨ (w.TableThere s.tableId s.venueId
      ∧ ∀ visitId, s.visitId = some visitId → w.VisitThere visitId s.tableId)
  orders : ∀ id o, w'.orders.get? id = some o →
    (∃ u, w.orders.get? id = some u) ∨ (w.SessionThere o.sessionId o.tableId o.venueId
      ∧ ∀ visitId, o.visitId = some visitId → w.VisitThere visitId o.tableId)
  items : ∀ id i, w'.orderItems.get? id = some i →
    (∃ u, w.orderItems.get? id = some u) ∨ ∃ o, w.orders.get? i.orderId = some o
  edits : ∀ id e, w'.orderEdits.get? id = some e →
    (∃ u, w.orderEdits.get? id = some u) ∨ ∃ o, w.orders.get? e.orderId = some o
  deliveries : ∀ id d, w'.posDeliveries.get? id = some d →
    (∃ u, w.posDeliveries.get? id = some u) ∨ w.OrderThere d.orderId d.venueId
  staff : ∀ id u, w'.staffUsers.get? id = some u →
    (∃ u', w.staffUsers.get? id = some u') ∨ ∃ v, w.venues.get? u.venueId = some v
  keys : ∀ id k, w'.bridgeKeys.get? id = some k →
    w.bridgeKeys.get? id = some k ∨ ∃ v, w.venues.get? k.venueId = some v
  news : ∀ e ∈ w'.published, e ∈ w.published ∨ e.TrueOf w

theorem NewFit.refl (w : World) : NewFit w w where
  tables _ t h := .inl ⟨t, h⟩
  visits _ v h := .inl ⟨v, h⟩
  sessions _ s h := .inl ⟨s, h⟩
  orders _ o h := .inl ⟨o, h⟩
  items _ i h := .inl ⟨i, h⟩
  edits _ e h := .inl ⟨e, h⟩
  deliveries _ d h := .inl ⟨d, h⟩
  staff _ u h := .inl ⟨u, h⟩
  keys _ _ h := .inl h
  news _ h := .inl h

/-- Nothing that others refer to has gone. -/
structure AllStay (w w' : World) : Prop where
  tables : w.tables.Stays w'.tables
  visits : w.tableVisits.Stays w'.tableVisits
  sessions : w.tableSessions.Stays w'.tableSessions

theorem AllStay.of_eq {w w' : World} (ht : w'.tables = w.tables)
    (hv : w'.tableVisits = w.tableVisits) (hs : w'.tableSessions = w.tableSessions) :
    AllStay w w' :=
  ⟨Rows.Stays.of_eq ht, Rows.Stays.of_eq hv, Rows.Stays.of_eq hs⟩

section

variable {w w' : World}

theorem TableThere.kept {tableId venueId : Id} (h : w.TableThere tableId venueId) (hk : Kept w w')
    (hs : w.tables.Stays w'.tables) : w'.TableThere tableId venueId := by
  obtain ⟨t, ht, rfl⟩ := h
  obtain ⟨t', ht', hsame⟩ := hk.tables.found hs ht
  exact ⟨t', ht', hsame.venueId⟩

theorem VisitThere.kept {visitId tableId : Id} (h : w.VisitThere visitId tableId) (hk : Kept w w')
    (hs : w.tableVisits.Stays w'.tableVisits) : w'.VisitThere visitId tableId := by
  obtain ⟨v, hv, rfl⟩ := h
  obtain ⟨v', hv', hsame⟩ := hk.visits.found hs hv
  exact ⟨v', hv', hsame.tableId⟩

theorem SessionThere.kept {sessionId tableId venueId : Id} (h : w.SessionThere sessionId tableId venueId)
    (hk : Kept w w') (hs : w.tableSessions.Stays w'.tableSessions) :
    w'.SessionThere sessionId tableId venueId := by
  obtain ⟨s, hget, rfl, rfl⟩ := h
  obtain ⟨s', hs', hsame⟩ := hk.sessions.found hs hget
  exact ⟨s', hs', hsame.tableId, hsame.venueId⟩

theorem OrderThere.kept {orderId venueId : Id} (h : w.OrderThere orderId venueId) (hk : Kept w w') :
    w'.OrderThere orderId venueId := by
  obtain ⟨o, ho, rfl⟩ := h
  obtain ⟨o', ho', hsame⟩ := hk.orders.found hk.ordersStay ho
  exact ⟨o', ho', hsame.venueId⟩

/-- A session sits at its visit's table, of its visit's venue. -/
theorem Coherent.session_at (h : Coherent w) {id visitId : Id} {s : TableSession} {v : TableVisit}
    (hs : w.tableSessions.get? id = some s) (hvisit : s.visitId = some visitId)
    (hv : w.tableVisits.get? visitId = some v) :
    s.tableId = v.tableId ∧ s.venueId = v.venueId := by
  obtain ⟨⟨t, ht, hvenue⟩, hseat⟩ := h.sessions id s hs
  obtain ⟨v', hv', htable⟩ := hseat visitId hvisit
  cases hv.symm.trans hv'
  obtain ⟨t', ht', hvenue'⟩ := h.visits visitId v hv
  rw [htable] at ht'
  cases ht.symm.trans ht'
  exact ⟨htable.symm, hvenue.symm.trans hvenue'⟩

/-- So does an order. -/
theorem Coherent.order_at (h : Coherent w) {id visitId : Id} {o : Order} {v : TableVisit}
    (ho : w.orders.get? id = some o) (hvisit : o.visitId = some visitId)
    (hv : w.tableVisits.get? visitId = some v) :
    o.tableId = v.tableId ∧ o.venueId = v.venueId := by
  obtain ⟨⟨s, hs, hst, hsv⟩, hseat⟩ := h.orders id o ho
  obtain ⟨v', hv', htable⟩ := hseat visitId hvisit
  cases hv.symm.trans hv'
  obtain ⟨t, ht, hvenue⟩ := (h.sessions _ s hs).1
  obtain ⟨t', ht', hvenue'⟩ := h.visits visitId v hv
  rw [htable, ← hst] at ht'
  cases ht.symm.trans ht'
  exact ⟨htable.symm, hsv.symm.trans (hvenue.symm.trans hvenue')⟩

theorem TrueOf.kept {e : BusEvent} (h : e.TrueOf w) (hk : Kept w w') : e.TrueOf w' := by
  cases e with
  | order_created venueId orderId sessionId tableId
  | order_updated venueId orderId sessionId tableId =>
    obtain ⟨o, ho, rfl, rfl, rfl⟩ := h
    obtain ⟨o', ho', hsame⟩ := hk.orders.found hk.ordersStay ho
    exact ⟨o', ho', hsame.venueId, hsame.sessionId, hsame.tableId⟩
  | _ => exact trivial

theorem TrueOf.of_orders {e : BusEvent} (h : e.TrueOf w) (heq : w'.orders = w.orders) :
    e.TrueOf w' := by
  cases e with
  | order_created venueId orderId sessionId tableId
  | order_updated venueId orderId sessionId tableId =>
    show ∃ o, w'.orders.get? orderId = some o ∧ _
    rw [heq]
    exact h
  | _ => exact trivial

/-- **Coherence is kept** by a change that keeps what rows refer to, and whose new rows
agree. -/
theorem Coherent.follow (h : Coherent w) (hk : Kept w w') (hs : AllStay w w')
    (hn : NewFit w w') : Coherent w' where
  tables id t ht := by
    rcases hn.tables id t ht with ⟨u, hu⟩ | ⟨v, hv⟩
    · obtain ⟨v, hv⟩ := h.tables id u hu
      exact (hk.tables.same hu ht).venueId ▸ hk.venues _ v hv
    · exact hk.venues _ v hv
  visits id v hv := by
    rcases hn.visits id v hv with ⟨u, hu⟩ | hfit
    · have hsame := hk.visits.same hu hv
      rw [hsame.tableId, hsame.venueId]
      exact TableThere.kept (h.visits id u hu) hk hs.tables
    · exact TableThere.kept hfit hk hs.tables
  sessions id s hget := by
    rcases hn.sessions id s hget with ⟨u, hu⟩ | ⟨htable, hvisit⟩
    · have hsame := hk.sessions.same hu hget
      obtain ⟨htable, hvisit⟩ := h.sessions id u hu
      rw [hsame.tableId, hsame.venueId]
      refine ⟨TableThere.kept htable hk hs.tables, fun visitId hv => ?_⟩
      rcases hsame.visitId with heq | hnone
      · exact VisitThere.kept (hvisit visitId (heq ▸ hv)) hk hs.visits
      · rw [hnone] at hv
        cases hv
    · exact ⟨TableThere.kept htable hk hs.tables,
        fun visitId hv => VisitThere.kept (hvisit visitId hv) hk hs.visits⟩
  orders id o ho := by
    rcases hn.orders id o ho with ⟨u, hu⟩ | ⟨hsession, hvisit⟩
    · have hsame := hk.orders.same hu ho
      obtain ⟨hsession, hvisit⟩ := h.orders id u hu
      rw [hsame.sessionId, hsame.tableId, hsame.venueId]
      refine ⟨SessionThere.kept hsession hk hs.sessions, fun visitId hv => ?_⟩
      rcases hsame.visitId with heq | hnone
      · exact VisitThere.kept (hvisit visitId (heq ▸ hv)) hk hs.visits
      · rw [hnone] at hv
        cases hv
    · exact ⟨SessionThere.kept hsession hk hs.sessions,
        fun visitId hv => VisitThere.kept (hvisit visitId hv) hk hs.visits⟩
  items id i hi := by
    rcases hn.items id i hi with ⟨u, hu⟩ | ⟨o, ho⟩
    · obtain ⟨o, ho⟩ := h.items id u hu
      rw [(hk.items.same hu hi).orderId]
      exact hk.ordersStay _ o ho
    · exact hk.ordersStay _ o ho
  edits id e he := by
    rcases hn.edits id e he with ⟨u, hu⟩ | ⟨o, ho⟩
    · obtain ⟨o, ho⟩ := h.edits id u hu
      rw [← hk.edits.same hu he]
      exact hk.ordersStay _ o ho
    · exact hk.ordersStay _ o ho
  deliveries id d hd := by
    rcases hn.deliveries id d hd with ⟨u, hu⟩ | hfit
    · have hsame := hk.deliveries.same hu hd
      rw [hsame.orderId, hsame.venueId]
      exact OrderThere.kept (h.deliveries id u hu) hk
    · exact OrderThere.kept hfit hk
  staff id u hu := by
    rcases hn.staff id u hu with ⟨u', hu'⟩ | ⟨v, hv⟩
    · obtain ⟨v, hv⟩ := h.staff id u' hu'
      rw [(hk.staff.same hu' hu).venueId]
      exact hk.venues _ v hv
    · exact hk.venues _ v hv
  keys id k hkey := by
    rcases hn.keys id k hkey with hold | ⟨v, hv⟩
    · obtain ⟨v, hv⟩ := h.keys id k hold
      exact hk.venues _ v hv
    · exact hk.venues _ v hv
  news e he := by
    rcases hn.news e he with hold | htrue
    · exact TrueOf.kept (h.news e hold) hk
    · exact TrueOf.kept htrue hk

end

/-! ## A step within bounds -/

variable {M : Kind → Addr → Prop} {w w' w'' : World}

/-- **The step stays within `M`**, kind by kind. -/
structure Within (M : Kind → Addr → Prop) (w w' : World) : Prop where
  venue : ∀ id v, w.venues.Differs w'.venues id v → M .venue { venue := id }
  table : ∀ id t, w.tables.Differs w'.tables id t → M .table (t.addr id)
  visit : ∀ id v, w.tableVisits.Differs w'.tableVisits id v → M .visit v.addr
  session : ∀ id s, w.tableSessions.Differs w'.tableSessions id s → M .session (s.addr id)
  order : ∀ id o, w.orders.Differs w'.orders id o → M .order (o.addr id)
  item : ∀ id i o, w.orderItems.Differs w'.orderItems id i → w'.orders.get? i.orderId = some o →
    M .item (o.addr i.orderId)
  edit : ∀ id e o, w.orderEdits.Differs w'.orderEdits id e → w'.orders.get? e.orderId = some o →
    M .edit (o.addr e.orderId)
  delivery : ∀ id d, w.posDeliveries.Differs w'.posDeliveries id d → M .delivery d.addr
  staff : ∀ id u, w.staffUsers.Differs w'.staffUsers id u → M .staff (u.addr id)
  news : ∀ e, e ∈ w'.published.drop w.published.length → M .news e.addr

theorem Within.touches (h : Within M w w') {k : Kind} {a : Addr} (ht : Touches w w' k a) :
    M k a := by
  cases ht with
  | venue hd => exact h.venue _ _ hd
  | table hd => exact h.table _ _ hd
  | visit hd => exact h.visit _ _ hd
  | session hd => exact h.session _ _ hd
  | order hd => exact h.order _ _ hd
  | item hd ho => exact h.item _ _ _ hd ho
  | edit hd ho => exact h.edit _ _ _ hd ho
  | delivery hd => exact h.delivery _ _ hd
  | staff hd => exact h.staff _ _ hd
  | news he => exact h.news _ he

theorem Within.refl (M : Kind → Addr → Prop) (w : World) : Within M w w where
  venue _ _ h := (h.of_eq rfl).elim
  table _ _ h := (h.of_eq rfl).elim
  visit _ _ h := (h.of_eq rfl).elim
  session _ _ h := (h.of_eq rfl).elim
  order _ _ h := (h.of_eq rfl).elim
  item _ _ _ h _ := (h.of_eq rfl).elim
  edit _ _ _ h _ := (h.of_eq rfl).elim
  delivery _ _ h := (h.of_eq rfl).elim
  staff _ _ h := (h.of_eq rfl).elim
  news e h := by
    rw [List.drop_length] at h
    cases h

/-- **A step**: the rows stay coherent, history is kept, and nothing but what `M` allows is
touched. -/
structure Step (M : Kind → Addr → Prop) (w w' : World) : Prop where
  coherent : Coherent w'
  kept : Kept w w'
  within : Within M w w'

theorem Step.refl (hw : Coherent w) : Step M w w := ⟨hw, Kept.refl w, Within.refl M w⟩

/-- **Two steps make one.** -/
theorem Step.trans (hw : Coherent w) (h : Step M w w') (h' : Step M w' w'') : Step M w w'' where
  coherent := h'.coherent
  kept := h.kept.trans h'.kept
  within := {
    venue := fun id v hd => hd.split.elim (h.within.venue id v) (h'.within.venue id v)
    table := fun id t hd => hd.split.elim (h.within.table id t) (h'.within.table id t)
    visit := fun id v hd => hd.split.elim (h.within.visit id v) (h'.within.visit id v)
    session := fun id s hd => hd.split.elim (h.within.session id s) (h'.within.session id s)
    order := fun id o hd => hd.split.elim (h.within.order id o) (h'.within.order id o)
    item := fun id i o hd ho => by
      rcases hd.split with hd | hd
      · -- the line's order is there in between, and in the same place
        obtain ⟨o', ho'⟩ : ∃ o', w'.orders.get? i.orderId = some o' := by
          rcases hd.1 with hi | hi
          · obtain ⟨u, hu⟩ := hw.items id i hi
            exact h.kept.ordersStay _ u hu
          · exact h.coherent.items id i hi
        rw [(h'.kept.orders.same ho' ho).addr]
        exact h.within.item id i o' hd ho'
      · exact h'.within.item id i o hd ho
    edit := fun id e o hd ho => by
      rcases hd.split with hd | hd
      · obtain ⟨o', ho'⟩ : ∃ o', w'.orders.get? e.orderId = some o' := by
          rcases hd.1 with he | he
          · obtain ⟨u, hu⟩ := hw.edits id e he
            exact h.kept.ordersStay _ u hu
          · exact h.coherent.edits id e he
        rw [(h'.kept.orders.same ho' ho).addr]
        exact h.within.edit id e o' hd ho'
      · exact h'.within.edit id e o hd ho
    delivery := fun id d hd => hd.split.elim (h.within.delivery id d) (h'.within.delivery id d)
    staff := fun id u hd => hd.split.elim (h.within.staff id u) (h'.within.staff id u)
    news := fun e he => by
      obtain ⟨l, hl⟩ := h.kept.published
      obtain ⟨l', hl'⟩ := h'.kept.published
      rw [← hl', ← hl, List.append_assoc, List.drop_left, List.mem_append] at he
      rcases he with he | he
      · refine h.within.news e ?_
        rw [← hl, List.drop_left]
        exact he
      · refine h'.within.news e ?_
        rw [← hl', List.drop_left]
        exact he }

/-! ## One table at a time -/

section

variable (hw : Coherent w)
include hw

/-- Orders are updated. -/
theorem step_orders {p : Id → Order → Bool} {f : Order → Order}
    (hf : ∀ id o, w.orders.get? id = some o → p id o = true →
      OrderKept o (f o) ∧ M .order (o.addr id)) :
    Step M w { w with orders := w.orders.update p f } := by
  have hk : Kept w { w with orders := w.orders.update p f } :=
    { Kept.refl w with
      orders := Rows.follows_update OrderKept.refl (fun id o ho hp => (hf id o ho hp).1)
      ordersStay := Rows.stays_update _ _ _ }
  refine ⟨hw.follow hk (AllStay.of_eq rfl rfl rfl)
    { NewFit.refl w with orders := fun id o ho => .inl (Rows.of_update ho) }, hk,
    { Within.refl M w with
      order := fun id o hd => ?_
      item := fun _ _ _ hd _ => (hd.of_eq rfl).elim
      edit := fun _ _ _ hd _ => (hd.of_eq rfl).elim }⟩
  obtain ⟨o', ho', hp, rfl | rfl⟩ := Rows.differs_update hd
  · exact (hf id o ho' hp).2
  · rw [(hf id o' ho' hp).1.addr]
    exact (hf id o' ho' hp).2

/-- Visits are updated. -/
theorem step_visits {p : Id → TableVisit → Bool} {f : TableVisit → TableVisit}
    (hf : ∀ id v, w.tableVisits.get? id = some v → p id v = true →
      VisitKept v (f v) ∧ M .visit v.addr) :
    Step M w { w with tableVisits := w.tableVisits.update p f } := by
  have hk : Kept w { w with tableVisits := w.tableVisits.update p f } :=
    { Kept.refl w with
      visits := Rows.follows_update VisitKept.refl (fun id v hv hp => (hf id v hv hp).1) }
  refine ⟨hw.follow hk ⟨Rows.Stays.refl _, Rows.stays_update _ _ _, Rows.Stays.refl _⟩
    { NewFit.refl w with visits := fun id v hv => .inl (Rows.of_update hv) }, hk,
    { Within.refl M w with visit := fun id v hd => ?_ }⟩
  obtain ⟨v', hv', hp, rfl | rfl⟩ := Rows.differs_update hd
  · exact (hf id v hv' hp).2
  · rw [(hf id v' hv' hp).1.addr]
    exact (hf id v' hv' hp).2

/-- Sessions are updated. -/
theorem step_sessions {p : Id → TableSession → Bool} {f : TableSession → TableSession}
    (hf : ∀ id s, w.tableSessions.get? id = some s → p id s = true →
      SessionKept s (f s) ∧ M .session (s.addr id)) :
    Step M w { w with tableSessions := w.tableSessions.update p f } := by
  have hk : Kept w { w with tableSessions := w.tableSessions.update p f } :=
    { Kept.refl w with
      sessions := Rows.follows_update SessionKept.refl (fun id s hs hp => (hf id s hs hp).1) }
  refine ⟨hw.follow hk ⟨Rows.Stays.refl _, Rows.Stays.refl _, Rows.stays_update _ _ _⟩
    { NewFit.refl w with sessions := fun id s hs => .inl (Rows.of_update hs) }, hk,
    { Within.refl M w with session := fun id s hd => ?_ }⟩
  obtain ⟨s', hs', hp, rfl | rfl⟩ := Rows.differs_update hd
  · exact (hf id s hs' hp).2
  · rw [(hf id s' hs' hp).1.addr]
    exact (hf id s' hs' hp).2

/-- Tables are updated. -/
theorem step_tables {p : Id → Table → Bool} {f : Table → Table}
    (hf : ∀ id t, w.tables.get? id = some t → p id t = true →
      TableKept t (f t) ∧ M .table (t.addr id)) :
    Step M w { w with tables := w.tables.update p f } := by
  have hk : Kept w { w with tables := w.tables.update p f } :=
    { Kept.refl w with
      tables := Rows.follows_update TableKept.refl (fun id t ht hp => (hf id t ht hp).1) }
  refine ⟨hw.follow hk ⟨Rows.stays_update _ _ _, Rows.Stays.refl _, Rows.Stays.refl _⟩
    { NewFit.refl w with tables := fun id t ht => .inl (Rows.of_update ht) }, hk,
    { Within.refl M w with table := fun id t hd => ?_ }⟩
  obtain ⟨t', ht', hp, rfl | rfl⟩ := Rows.differs_update hd
  · exact (hf id t ht' hp).2
  · rw [(hf id t' ht' hp).1.addr]
    exact (hf id t' ht' hp).2

/-- Deliveries are updated. -/
theorem step_deliveries {p : Id → PosDelivery → Bool} {f : PosDelivery → PosDelivery}
    (hf : ∀ id d, w.posDeliveries.get? id = some d → p id d = true →
      DeliveryKept d (f d) ∧ M .delivery d.addr) :
    Step M w { w with posDeliveries := w.posDeliveries.update p f } := by
  have hk : Kept w { w with posDeliveries := w.posDeliveries.update p f } :=
    { Kept.refl w with
      deliveries := Rows.follows_update DeliveryKept.refl (fun id d hd hp => (hf id d hd hp).1)
      deliveriesStay := Rows.stays_update _ _ _ }
  refine ⟨hw.follow hk (AllStay.of_eq rfl rfl rfl)
    { NewFit.refl w with deliveries := fun id d hd => .inl (Rows.of_update hd) }, hk,
    { Within.refl M w with delivery := fun id d hd => ?_ }⟩
  obtain ⟨d', hd', hp, rfl | rfl⟩ := Rows.differs_update hd
  · exact (hf id d hd' hp).2
  · rw [(hf id d' hd' hp).1.addr]
    exact (hf id d' hd' hp).2

/-- Accounts are updated. -/
theorem step_staff {p : Id → StaffUser → Bool} {f : StaffUser → StaffUser}
    (hf : ∀ id u, w.staffUsers.get? id = some u → p id u = true →
      StaffKept u (f u) ∧ M .staff (u.addr id)) :
    Step M w { w with staffUsers := w.staffUsers.update p f } := by
  have hk : Kept w { w with staffUsers := w.staffUsers.update p f } :=
    { Kept.refl w with
      staff := Rows.follows_update StaffKept.refl (fun id u hu hp => (hf id u hu hp).1)
      staffStay := Rows.stays_update _ _ _ }
  refine ⟨hw.follow hk (AllStay.of_eq rfl rfl rfl)
    { NewFit.refl w with staff := fun id u hu => .inl (Rows.of_update hu) }, hk,
    { Within.refl M w with staff := fun id u hd => ?_ }⟩
  obtain ⟨u', hu', hp, rfl | rfl⟩ := Rows.differs_update hd
  · exact (hf id u hu' hp).2
  · rw [(hf id u' hu' hp).1.addr]
    exact (hf id u' hu' hp).2

/-- A venue is updated. -/
theorem step_venue {id : Id} {f : Venue → Venue} (hM : M .venue { venue := id }) :
    Step M w { w with venues := w.venues.updateAt id f } := by
  have hk : Kept w { w with venues := w.venues.updateAt id f } :=
    { Kept.refl w with venues := Rows.stays_updateAt _ _ _ }
  refine ⟨hw.follow hk (AllStay.of_eq rfl rfl rfl)
    { NewFit.refl w with keys := fun _ _ h => .inl h }, hk,
    { Within.refl M w with venue := fun k v hd => ?_ }⟩
  rw [(Rows.differs_updateAt hd).1]
  exact hM

/-- Lines are updated. -/
theorem step_items {p : Id → OrderItem → Bool} {f : OrderItem → OrderItem}
    (hf : ∀ id i, w.orderItems.get? id = some i → p id i = true → ItemKept i (f i)
      ∧ ∀ o, w.orders.get? i.orderId = some o → M .item (o.addr i.orderId)) :
    Step M w { w with orderItems := w.orderItems.update p f } := by
  have hk : Kept w { w with orderItems := w.orderItems.update p f } :=
    { Kept.refl w with
      items := Rows.follows_update ItemKept.refl (fun id i hi hp => (hf id i hi hp).1)
      itemsStay := Rows.stays_update _ _ _ }
  refine ⟨hw.follow hk (AllStay.of_eq rfl rfl rfl)
    { NewFit.refl w with items := fun id i hi => .inl (Rows.of_update hi) }, hk,
    { Within.refl M w with item := fun id i o hd ho => ?_ }⟩
  obtain ⟨i', hi', hp, rfl | rfl⟩ := Rows.differs_update hd
  · exact (hf id i hi' hp).2 o ho
  · obtain ⟨hsame, hM⟩ := hf id i' hi' hp
    rw [hsame.orderId] at ho ⊢
    exact hM o ho

/-- An event is announced. -/
theorem step_publish {e : BusEvent} (he : e.TrueOf w) (hM : M .news e.addr) :
    Step M w { w with published := w.published ++ [e] } := by
  have hk : Kept w { w with published := w.published ++ [e] } :=
    { Kept.refl w with published := List.prefix_append _ _ }
  refine ⟨hw.follow hk (AllStay.of_eq rfl rfl rfl)
    { NewFit.refl w with news := fun e' he' => ?_ }, hk,
    { Within.refl M w with news := fun e' he' => ?_ }⟩
  · rcases List.mem_append.mp he' with hold | hnew
    · exact .inl hold
    · exact .inr (List.mem_singleton.mp hnew ▸ he)
  · rw [List.drop_left, List.mem_singleton] at he'
    exact he' ▸ hM

end

end Masadan
