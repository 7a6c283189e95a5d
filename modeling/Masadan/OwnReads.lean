import Masadan.HouseLaws
import Masadan.Lockstep

/-!
# Nobody is shown what is not theirs

One database holds the rows of all venues and of all parties. `Masadan.HouseLaws` says that
a request touches nothing but what it may; here is what it can be shown. Two runs of the
whole server are compared. They may differ in everything except, whenever the request makes
one of its calls, in the rows it is about. Then it is answered the same.

* `shown_own_venue`: what staff read of the board, the bills, the log, its export and the day's
  figures depends on the rows of their venue, and on their account;
* `shown_own_party`: what a phone is shown of orders and of the bill depends on the rows of its
  party.

Most reads are made by the venue or by the visit, so their rows are the right ones. But they
go on from there along references: to a table's name, an order's lines, its corrections, its
ticket, its visit. That these lead nowhere else is what the rows agreeing is for
(`house_coherent`); and that what is looked up by one call is still the same row at the next,
that history is kept (`history_kept`).
-/

namespace Masadan

/-! ## The same rows -/

/-- The lines of the orders that are meant. -/
def World.linesAmong (w : World) (own : Order → Bool) : List (Id × OrderItem) :=
  w.orderItems.filter (fun _ i => (w.orders.get? i.orderId).any own)

/-- The corrections of the orders that are meant. -/
def World.editsAmong (w : World) (own : Order → Bool) : List (Id × OrderEdit) :=
  w.orderEdits.filter (fun _ e => (w.orders.get? e.orderId).any own)

/-- **The two worlds have the same orders of a kind**, with the same lines. -/
structure SameOrders (own : Order → Bool) (w w' : World) : Prop where
  orders : w.orders.filter (fun _ o => own o) = w'.orders.filter (fun _ o => own o)
  lines : w.linesAmong own = w'.linesAmong own

deriving instance DecidableEq for Table

/-- What is a venue's. -/
structure VenueRows where
  now : Time
  tables : List (Id × Table)
  visits : List (Id × TableVisit)
  orders : List (Id × Order)
  lines : List (Id × OrderItem)
  edits : List (Id × OrderEdit)
  deliveries : List (Id × PosDelivery)
  deriving DecidableEq

def World.rowsOfVenue (w : World) (venueId : Id) : VenueRows where
  now := w.now
  tables := w.tables.filter (fun _ t => t.venueId == venueId)
  visits := w.tableVisits.filter (fun _ v => v.venueId == venueId)
  orders := w.orders.filter (fun _ o => o.venueId == venueId)
  lines := w.linesAmong (fun o => o.venueId == venueId)
  edits := w.editsAmong (fun o => o.venueId == venueId)
  deliveries := w.posDeliveries.filter (fun _ d => d.venueId == venueId)

/-- **The two worlds are the same to a venue.** -/
def SameVenue (venueId : Id) (w w' : World) : Prop := w.rowsOfVenue venueId = w'.rowsOfVenue venueId

/-- The two worlds are the same to an account. -/
structure SameAccount (id : Id) (w w' : World) : Prop where
  row : w.staffUsers.get? id = w'.staffUsers.get? id
  remembered : w.accountCache id = w'.accountCache id

/-- **The orders of a party**: those of its visit, or of the whole table if it has none. -/
def ofParty (tableId : Id) (visit : Option Id) (o : Order) : Bool :=
  match visit with
  | some visitId => o.visitId == some visitId
  | none => o.tableId == tableId

/-- What is a party's, and the phone's that is with it. -/
structure PartyRows where
  now : Time
  seat : Option (Id × TableSession × Table)
  table : Option Table
  visit : Option TableVisit
  orders : List (Id × Order)
  lines : List (Id × OrderItem)
  deriving DecidableEq

def World.rowsOfParty (w : World) (phone tableId : Id) (visit : Option Id) : PartyRows where
  now := w.now
  seat := w.sessionByToken phone
  table := w.tables.get? tableId
  visit := visit.bind w.tableVisits.get?
  orders := w.orders.filter (fun _ o => ofParty tableId visit o)
  lines := w.linesAmong (ofParty tableId visit)

/-- **The two worlds are the same to a phone**, which is at the table, with the party. -/
structure SameParty (phone tableId : Id) (visit : Option Id) (w w' : World) : Prop where
  rows : w.rowsOfParty phone tableId visit = w'.rowsOfParty phone tableId visit
  here : ∀ found, w.sessionByToken phone = some found →
    found.2.1.tableId = tableId ∧ found.2.1.visitId = visit
  seated : ∀ v, visit.bind w.tableVisits.get? = some v → v.tableId = tableId

section

variable {own : Order → Bool} {w w' : World}

theorem SameOrders.symm (h : SameOrders own w w') : SameOrders own w' w :=
  ⟨h.orders.symm, h.lines.symm⟩

/-- An order that is meant is in both. -/
theorem SameOrders.order (h : SameOrders own w w') {id : Id} {o : Order}
    (ho : w.orders.get? id = some o) (hown : own o = true) : w'.orders.get? id = some o :=
  (Rows.get?_within h.orders ho hown).1

/-- **What is read of the lines of an order that is meant.** -/
theorem SameOrders.items (h : SameOrders own w w') {id : Id} {o : Order}
    (ho : w.orders.get? id = some o) (hown : own o = true) (p : OrderItem → Bool) :
    w.orderItems.filter (fun _ i => i.orderId == id && p i)
      = w'.orderItems.filter (fun _ i => i.orderId == id && p i) := by
  have hin : ∀ {w₁ : World}, w₁.orders.get? id = some o → ∀ (k : ℕ) (i : OrderItem),
      w₁.orderItems.get? k = some i → (i.orderId == id && p i) = true →
      (w₁.orders.get? i.orderId).any own = true := by
    intro w₁ ho₁ k i _ hp
    rw [beq_iff_eq.mp (Bool.and_eq_true_iff.mp hp).1, ho₁]
    exact hown
  exact Rows.filter_within h.lines (hin ho) (hin (h.order ho hown)) (fun _ _ _ _ => rfl)

theorem SameOrders.liveItems (h : SameOrders own w w') {id : Id} {o : Order}
    (ho : w.orders.get? id = some o) (hown : own o = true) : w.liveItems id = w'.liveItems id :=
  h.items ho hown (fun i => i.voidedAt.isNone)

theorem SameOrders.allItems (h : SameOrders own w w') {id : Id} {o : Order}
    (ho : w.orders.get? id = some o) (hown : own o = true) : w.allItems id = w'.allItems id := by
  have hall := h.items ho hown (fun _ => true)
  simp only [Bool.and_true] at hall
  exact hall

/-- **The orders within those that are meant.** -/
theorem SameOrders.within (h : SameOrders own w w') {p p' : ℕ → Order → Bool}
    (hp : ∀ id o, w.orders.get? id = some o → p id o = true → own o = true)
    (hp' : ∀ id o, w'.orders.get? id = some o → p' id o = true → own o = true)
    (hpp' : ∀ id o, w.orders.get? id = some o → w'.orders.get? id = some o → p id o = p' id o) :
    w.orders.filter p = w'.orders.filter p' :=
  Rows.filter_within h.orders hp hp' hpp'

/-- **The bill of a visit whose orders are meant.** -/
theorem SameOrders.buildBill (h : SameOrders own w w') {visitId : Id}
    (hown : ∀ id o, w.orders.get? id = some o → o.visitId = some visitId → own o = true)
    (hown' : ∀ id o, w'.orders.get? id = some o → o.visitId = some visitId → own o = true)
    (hvisit : w.tableVisits.get? visitId = w'.tableVisits.get? visitId)
    (htable : ∀ v, w.tableVisits.get? visitId = some v →
      w.tables.get? v.tableId = w'.tables.get? v.tableId) :
    w.buildBill visitId = w'.buildBill visitId := by
  have horders : w.billedOrders visitId = w'.billedOrders visitId :=
    h.within (fun id o ho hp => hown id o ho (beq_iff_eq.mp (Bool.and_eq_true_iff.mp hp).1))
      (fun id o ho hp => hown' id o ho (beq_iff_eq.mp (Bool.and_eq_true_iff.mp hp).1))
      (fun _ _ _ _ => rfl)
  have hmem : ∀ o ∈ orderBy (fun o => o.2.createdAt) (w'.billedOrders visitId),
      w.liveItems o.1 = w'.liveItems o.1 := by
    intro o ho
    rw [← horders] at ho
    obtain ⟨hget, hp⟩ := Rows.mem_filter.mp ((orderBy_perm _ _).mem_iff.mp ho)
    exact h.liveItems hget (hown o.1 o.2 hget (beq_iff_eq.mp (Bool.and_eq_true_iff.mp hp).1))
  have hlines : (orderBy (fun o => o.2.createdAt) (w'.billedOrders visitId)).flatMap
        (fun o => (w.liveItems o.1).map (fun i => i.2.billLine))
      = (orderBy (fun o => o.2.createdAt) (w'.billedOrders visitId)).flatMap
        (fun o => (w'.liveItems o.1).map (fun i => i.2.billLine)) :=
    List.flatMap_congr (fun o ho => by rw [hmem o ho])
  have hphones : (orderBy (fun o => o.2.createdAt) (w'.billedOrders visitId)).foldl
        (fun m o => addTo m o.2.sessionId (w.liveTotal o.1)) []
      = (orderBy (fun o => o.2.createdAt) (w'.billedOrders visitId)).foldl
        (fun m o => addTo m o.2.sessionId (w'.liveTotal o.1)) [] := by
    refine List.foldl_ext _ _ _ (fun m o ho => ?_)
    unfold World.liveTotal
    rw [hmem o ho]
  unfold World.buildBill
  rw [← hvisit, horders]
  cases hv : w.tableVisits.get? visitId with
  | none => rfl
  | some v =>
    dsimp only
    rw [htable v hv, hlines, hphones]

end

/-! ## A venue -/

theorem mem_logRows {w : World} {venueId : Id} {since : Time} {r : Id × Order}
    (hr : r ∈ w.logRows venueId since) :
    w.orders.get? r.1 = some r.2 ∧ r.2.venueId = venueId := by
  obtain ⟨hget, hp⟩ := Rows.mem_filter.mp hr
  exact ⟨hget, beq_iff_eq.mp (Bool.and_eq_true_iff.mp hp).1⟩

/-- A page is of rows that were found. -/
theorem mem_splitPage {α ι : Type} {id : α → ι} {rows : List α} {limit : ℤ} {page : Page α ι}
    (h : splitPage id rows limit = .ok page) {r : α} (hr : r ∈ page.items) : r ∈ rows := by
  unfold splitPage at h
  split at h
  · cases h
    exact hr
  · dsimp only at h
    split at h
    · cases h
    · cases h
      exact List.mem_of_mem_take hr

theorem mem_findOrders {ι : Type} [LinearOrder ι] {name : Id → ι} {w : World} {venueId : Id}
    {since : Time} {cursor : Option Id} {take : ℤ} {r : Id × Order}
    (h : r ∈ w.findOrders name venueId since cursor take) : r ∈ w.logRows venueId since := by
  unfold World.findOrders at h
  have hrow := List.mem_of_mem_take h
  split at hrow
  · exact (List.perm_insertionSort _ _).mem_iff.mp hrow
  · split at hrow
    · cases hrow
    · exact (List.perm_insertionSort _ _).mem_iff.mp (List.mem_of_mem_filter hrow)

section

variable {venueId : Id} {w w' : World} (h : SameVenue venueId w w') (hw : Coherent w)
  (hw' : Coherent w')

include h

theorem SameVenue.symm : SameVenue venueId w' w := Eq.symm h

theorem SameVenue.now : w.now = w'.now := congrArg VenueRows.now h

theorem SameVenue.tables : w.tables.filter (fun _ t => t.venueId == venueId)
    = w'.tables.filter (fun _ t => t.venueId == venueId) := congrArg VenueRows.tables h

theorem SameVenue.visits : w.tableVisits.filter (fun _ v => v.venueId == venueId)
    = w'.tableVisits.filter (fun _ v => v.venueId == venueId) := congrArg VenueRows.visits h

theorem SameVenue.orders : SameOrders (fun o => o.venueId == venueId) w w' :=
  ⟨congrArg VenueRows.orders h, congrArg VenueRows.lines h⟩

theorem SameVenue.edits : w.editsAmong (fun o => o.venueId == venueId)
    = w'.editsAmong (fun o => o.venueId == venueId) := congrArg VenueRows.edits h

theorem SameVenue.deliveries : w.posDeliveries.filter (fun _ d => d.venueId == venueId)
    = w'.posDeliveries.filter (fun _ d => d.venueId == venueId) :=
  congrArg VenueRows.deliveries h

theorem SameVenue.table {id : Id} {t : Table} (ht : w.tables.get? id = some t)
    (hvenue : t.venueId = venueId) : w.tables.get? id = w'.tables.get? id := by
  rw [ht, (Rows.get?_within h.tables ht (beq_iff_eq.mpr hvenue)).1]

theorem SameVenue.visit {id : Id} {v : TableVisit} (hv : w.tableVisits.get? id = some v)
    (hvenue : v.venueId = venueId) : w.tableVisits.get? id = w'.tableVisits.get? id := by
  rw [hv, (Rows.get?_within h.visits hv (beq_iff_eq.mpr hvenue)).1]

theorem SameVenue.order {id : Id} {o : Order} (ho : w.orders.get? id = some o)
    (hvenue : o.venueId = venueId) : w'.orders.get? id = some o :=
  h.orders.order ho (beq_iff_eq.mpr hvenue)

/-- A visit looked up by the venue. -/
theorem SameVenue.visitOf' (id : Id) : w.visitOf id venueId = w'.visitOf id venueId := by
  have hfound : ∀ {w₁ w₂ : World}, SameVenue venueId w₁ w₂ → ∀ v,
      w₁.visitOf id venueId = some v → w₂.visitOf id venueId = some v := by
    intro w₁ w₂ h₁ v hv
    obtain ⟨hrow, hvenue⟩ := Option.filter_eq_some_iff.mp hv
    exact Option.filter_eq_some_iff.mpr ⟨(Rows.get?_within h₁.visits hrow hvenue).1, hvenue⟩
  exact Option.ext (fun v => ⟨hfound h v, hfound h.symm v⟩)

/-- The orders within those of the venue. -/
theorem SameVenue.rows {p p' : ℕ → Order → Bool}
    (hp : ∀ id o, p id o = true → o.venueId = venueId)
    (hp' : ∀ id o, p' id o = true → o.venueId = venueId) (hpp' : ∀ id o, p id o = p' id o) :
    w.orders.filter p = w'.orders.filter p' :=
  h.orders.within (fun id o _ hpo => beq_iff_eq.mpr (hp id o hpo))
    (fun id o _ hpo => beq_iff_eq.mpr (hp' id o hpo)) (fun id o _ _ => hpp' id o)

/-- The corrections of an order of the venue. -/
theorem SameVenue.editsOf {id : Id} {o : Order} (ho : w.orders.get? id = some o)
    (hvenue : o.venueId = venueId) :
    w.orderEdits.filter (fun _ e => e.orderId == id)
      = w'.orderEdits.filter (fun _ e => e.orderId == id) := by
  have hin : ∀ {w₁ : World}, w₁.orders.get? id = some o → ∀ (k : ℕ) (e : OrderEdit),
      w₁.orderEdits.get? k = some e → (e.orderId == id) = true →
      (w₁.orders.get? e.orderId).any (fun o => o.venueId == venueId) = true := by
    intro w₁ ho₁ k e _ hp
    rw [beq_iff_eq.mp hp, ho₁]
    exact beq_iff_eq.mpr hvenue
  exact Rows.filter_within h.edits (hin ho) (hin (h.order ho hvenue)) (fun _ _ _ _ => rfl)

theorem SameVenue.openVisits : w.openVisitsOfVenue venueId = w'.openVisitsOfVenue venueId :=
  Rows.filter_within h.visits (fun _ _ _ hp => (Bool.and_eq_true_iff.mp hp).1)
    (fun _ _ _ hp => (Bool.and_eq_true_iff.mp hp).1) (fun _ _ _ _ => rfl)

theorem SameVenue.openVisit {v : Id × TableVisit} (hv : v ∈ w'.openVisitsOfVenue venueId) :
    w.tableVisits.get? v.1 = some v.2 ∧ v.2.venueId = venueId := by
  rw [← h.openVisits] at hv
  obtain ⟨hget, hp⟩ := Rows.mem_filter.mp hv
  exact ⟨hget, beq_iff_eq.mp (Bool.and_eq_true_iff.mp hp).1⟩

theorem SameVenue.logRows (since : Time) : w.logRows venueId since = w'.logRows venueId since :=
  h.rows (fun _ _ hp => beq_iff_eq.mp (Bool.and_eq_true_iff.mp hp).1)
    (fun _ _ hp => beq_iff_eq.mp (Bool.and_eq_true_iff.mp hp).1) (fun _ _ => rfl)

/-- **What was taken.** -/
theorem SameVenue.takings (start stop : Time) :
    w.takings venueId start stop = w'.takings venueId start stop := by
  refine congrArg (List.map Prod.snd) (Rows.filter_within h.visits (fun _ _ _ hp => ?_)
    (fun _ _ _ hp => ?_) (fun _ _ _ _ => rfl))
  · simp only [Bool.and_eq_true] at hp
    exact hp.1.1.1
  · simp only [Bool.and_eq_true] at hp
    exact hp.1.1.1

theorem SameVenue.ordersPlaced (start stop : Time) :
    w.ordersPlaced venueId start stop = w'.ordersPlaced venueId start stop :=
  congrArg List.length (h.rows (fun _ _ hp => beq_iff_eq.mp (Bool.and_eq_true_iff.mp hp).1)
    (fun _ _ hp => beq_iff_eq.mp (Bool.and_eq_true_iff.mp hp).1) (fun _ _ => rfl))

theorem SameVenue.ordersRejected (start stop : Time) :
    w.ordersRejected venueId start stop = w'.ordersRejected venueId start stop := by
  refine congrArg List.length (h.rows (fun _ _ hp => ?_) (fun _ _ hp => ?_) (fun _ _ => rfl))
  · simp only [Bool.and_eq_true, beq_iff_eq] at hp
    exact hp.1.1
  · simp only [Bool.and_eq_true, beq_iff_eq] at hp
    exact hp.1.1

/-- **What was sold.** -/
theorem SameVenue.itemsSold (start stop : Time) :
    w.itemsSold venueId start stop = w'.itemsSold venueId start stop := by
  have hown : ∀ {w₁ : World} (k : ℕ) (i : OrderItem), w₁.orderItems.get? k = some i →
      (w₁.orders.get? i.orderId).any (fun o => o.venueId == venueId && notVoid o.status
        && Calendar.within start stop (some o.createdAt)) = true →
      (w₁.orders.get? i.orderId).any (fun o => o.venueId == venueId) = true := by
    intro w₁ k i _ hp
    obtain ⟨o, ho, hof⟩ := (Option.any_eq_true _ _).mp hp
    simp only [Bool.and_eq_true] at hof
    exact (Option.any_eq_true _ _).mpr ⟨o, ho, hof.1.1⟩
  have hsame : ∀ {w₁ w₂ : World}, SameVenue venueId w₁ w₂ → ∀ (id : Id) (p : Order → Bool),
      (w₁.orders.get? id).any (fun o => o.venueId == venueId && p o) = true →
      (w₂.orders.get? id).any (fun o => o.venueId == venueId && p o) = true := by
    intro w₁ w₂ h₁ id p hp
    obtain ⟨o, ho, hof⟩ := (Option.any_eq_true _ _).mp hp
    have ho₂ := h₁.order ho (beq_iff_eq.mp (Bool.and_eq_true_iff.mp hof).1)
    exact (Option.any_eq_true _ _).mpr ⟨o, ho₂, hof⟩
  refine congrArg (fun l => (List.map (fun r : Id × OrderItem => r.2.qty) l).sum)
    (Rows.filter_within h.orders.lines hown hown (fun _ i _ _ => Bool.eq_iff_iff.mpr ?_))
  simp only [Bool.and_assoc]
  exact ⟨hsame h _ _, hsame h.symm _ _⟩

include hw

/-- The table of an order of the venue. -/
theorem SameVenue.tableOf {id : Id} {o : Order} (ho : w.orders.get? id = some o)
    (hvenue : o.venueId = venueId) : w.tables.get? o.tableId = w'.tables.get? o.tableId := by
  obtain ⟨⟨s, hs, hat, hof⟩, _⟩ := hw.orders id o ho
  obtain ⟨⟨t, ht, htvenue⟩, _⟩ := hw.sessions _ s hs
  rw [hat] at ht
  exact h.table ht (htvenue.trans (hof.trans hvenue))

/-- The table of a visit of the venue. -/
theorem SameVenue.tableOfVisit {id : Id} {v : TableVisit} (hv : w.tableVisits.get? id = some v)
    (hvenue : v.venueId = venueId) : w.tables.get? v.tableId = w'.tables.get? v.tableId := by
  obtain ⟨t, ht, htvenue⟩ := hw.visits id v hv
  exact h.table ht (htvenue.trans hvenue)

/-- The visit of an order of the venue. -/
theorem SameVenue.visitOf {id : Id} {o : Order} (ho : w.orders.get? id = some o)
    (hvenue : o.venueId = venueId) :
    o.visitId.bind w.tableVisits.get? = o.visitId.bind w'.tableVisits.get? := by
  cases hvisit : o.visitId with
  | none => rfl
  | some visitId =>
    obtain ⟨v, hv, _⟩ := (hw.orders id o ho).2 visitId hvisit
    exact h.visit hv ((hw.order_at ho hvisit hv).2.symm.trans hvenue)

/-- **The exported orders.** -/
theorem SameVenue.exportOrders (since : Time) :
    w.exportOrders venueId since = w'.exportOrders venueId since := by
  unfold World.exportOrders
  rw [← h.logRows]
  refine List.map_congr_left (fun r hr => ?_)
  obtain ⟨hget, hvenue⟩ := mem_logRows ((orderBy_perm _ _).mem_iff.mp hr)
  have hitems := h.orders.allItems hget (beq_iff_eq.mpr hvenue)
  unfold World.allItems at hitems
  unfold World.exportOrder
  rw [h.tableOf hw hget hvenue, h.visitOf hw hget hvenue, hitems]

/-- **A page of the log**, from a cursor of the venue. -/
theorem SameVenue.ordersPage {now : Time} {days : ℚ} {limit : ℤ} {cursor : Option Id}
    (hcursor : ∀ id, cursor = some id → w.orders.get? id = w'.orders.get? id) :
    w.ordersPage (fun id : Id => id) now venueId days limit cursor
      = w'.ordersPage (fun id : Id => id) now venueId days limit cursor := by
  have hfound : w.findOrders (fun id : Id => id) venueId (logSince days now) cursor (limit + 1)
      = w'.findOrders (fun id : Id => id) venueId (logSince days now) cursor (limit + 1) := by
    unfold World.findOrders
    rw [h.logRows]
    cases cursor with
    | none => rfl
    | some id =>
      dsimp only
      rw [hcursor id rfl]
  unfold World.ordersPage
  dsimp only
  rw [← hfound]
  cases hpage : splitPage Prod.fst
      (w.findOrders (fun id : Id => id) venueId (logSince days now) cursor (limit + 1)) limit with
  | error e => rfl
  | ok page =>
    refine congrArg (fun orders => Except.ok (⟨days, page.nextCursor, orders⟩ : OrdersPage))
      (List.map_congr_left (fun r hr => ?_))
    obtain ⟨hget, hvenue⟩ := mem_logRows (mem_findOrders (mem_splitPage hpage hr))
    have hitems := h.orders.allItems hget (beq_iff_eq.mpr hvenue)
    unfold World.allItems at hitems
    unfold World.logOrder
    rw [h.tableOf hw hget hvenue, h.visitOf hw hget hvenue, hitems]

include hw'

/-- The tickets of an order of the venue. -/
theorem SameVenue.deliveriesOf {id : Id} {o : Order} (ho : w.orders.get? id = some o)
    (hvenue : o.venueId = venueId) :
    w.posDeliveries.filter (fun _ d => d.orderId == id)
      = w'.posDeliveries.filter (fun _ d => d.orderId == id) := by
  have hin : ∀ {w₁ : World}, Coherent w₁ → w₁.orders.get? id = some o →
      ∀ (k : ℕ) (d : PosDelivery), w₁.posDeliveries.get? k = some d → (d.orderId == id) = true →
      (d.venueId == venueId) = true := by
    intro w₁ hw₁ ho₁ k d hd hp
    obtain ⟨o', ho', hof⟩ := hw₁.deliveries k d hd
    rw [beq_iff_eq.mp hp, ho₁] at ho'
    cases ho'
    exact beq_iff_eq.mpr (hof.symm.trans hvenue)
  exact Rows.filter_within h.deliveries (hin hw ho) (hin hw' (h.order ho hvenue))
    (fun _ _ _ _ => rfl)

/-! ### What staff read -/

/-- **The board.** -/
theorem SameVenue.deskOrders (all : Bool) :
    w.deskOrders venueId all = w'.deskOrders venueId all := by
  have hrows : w.boardRows venueId all = w'.boardRows venueId all := by
    refine congrArg (orderBy _) (h.rows (fun _ _ hp => ?_) (fun _ _ hp => ?_) (fun _ o => ?_))
    · exact beq_iff_eq.mp (Bool.and_eq_true_iff.mp hp).1
    · exact beq_iff_eq.mp (Bool.and_eq_true_iff.mp hp).1
    · unfold World.onBoard
      rw [h.now]
  have hcard : ∀ o ∈ w'.boardRows venueId all, ∀ first,
      w.deskOrder first o = w'.deskOrder first o := by
    intro o ho first
    rw [← hrows] at ho
    obtain ⟨hget, hp⟩ := Rows.mem_filter.mp ((orderBy_perm _ _).mem_iff.mp ho)
    have hvenue : o.2.venueId = venueId := beq_iff_eq.mp (Bool.and_eq_true_iff.mp hp).1
    unfold World.deskOrder
    rw [h.tableOf hw hget hvenue, h.deliveriesOf hw hw' hget hvenue, h.editsOf hget hvenue,
      h.orders.liveItems hget (beq_iff_eq.mpr hvenue)]
  unfold World.deskOrders
  dsimp only
  rw [hrows]
  exact List.map_congr_left (fun o ho => hcard o ho _)

/-- The orders of a visit of the venue. -/
theorem SameVenue.billedOrders {id : Id} {v : TableVisit} (hv : w.tableVisits.get? id = some v)
    (hvenue : v.venueId = venueId) : w.billedOrders id = w'.billedOrders id := by
  have hv' := (h.visit hv hvenue).symm.trans hv
  refine h.orders.within (fun k o ho hp => ?_) (fun k o ho hp => ?_) (fun _ _ _ _ => rfl)
  · exact beq_iff_eq.mpr ((hw.order_at ho (beq_iff_eq.mp (Bool.and_eq_true_iff.mp hp).1)
      hv).2.trans hvenue)
  · exact beq_iff_eq.mpr ((hw'.order_at ho (beq_iff_eq.mp (Bool.and_eq_true_iff.mp hp).1)
      hv').2.trans hvenue)

/-- **A bill.** -/
theorem SameVenue.buildBill {id : Id} {v : TableVisit} (hv : w.tableVisits.get? id = some v)
    (hvenue : v.venueId = venueId) : w.buildBill id = w'.buildBill id := by
  have hv' := (h.visit hv hvenue).symm.trans hv
  refine h.orders.buildBill (fun k o ho hvisit => ?_) (fun k o ho hvisit => ?_) (h.visit hv hvenue)
    (fun u hu => ?_)
  · exact beq_iff_eq.mpr ((hw.order_at ho hvisit hv).2.trans hvenue)
  · exact beq_iff_eq.mpr ((hw'.order_at ho hvisit hv').2.trans hvenue)
  · cases hv.symm.trans hu
    exact h.tableOfVisit hw hv hvenue

/-- The bill of a visit that is the venue's, if it is there. -/
theorem SameVenue.buildBill' {id : Id}
    (hof : ∀ v, w.tableVisits.get? id = some v → v.venueId = venueId)
    (hof' : ∀ v, w'.tableVisits.get? id = some v → v.venueId = venueId) :
    w.buildBill id = w'.buildBill id := by
  cases hv : w.tableVisits.get? id with
  | some v => exact h.buildBill hw hw' hv (hof v hv)
  | none =>
    cases hv' : w'.tableVisits.get? id with
    | some v => exact (h.symm.buildBill hw' hw hv' (hof' v hv')).symm
    | none =>
      unfold World.buildBill
      rw [hv, hv']

/-- **The bills of the floor.** -/
theorem SameVenue.deskBills : w.deskBills venueId = w'.deskBills venueId := by
  unfold World.deskBills
  rw [h.openVisits]
  refine congrArg (List.filter _) (List.map_congr_left (fun v hv => ?_))
  obtain ⟨hget, hvenue⟩ := h.openVisit ((List.perm_insertionSort _ _).mem_iff.mp hv)
  unfold World.deskBill World.storedTotal
  rw [h.billedOrders hw hw' hget hvenue, h.tableOfVisit hw hget hvenue]

theorem SameVenue.openTables : w.openTables venueId = w'.openTables venueId := by
  unfold World.openTables
  rw [h.openVisits]
  have htotals : (w'.openVisitsOfVenue venueId).map (fun v => w.storedTotal v.1)
      = (w'.openVisitsOfVenue venueId).map (fun v => w'.storedTotal v.1) := by
    refine List.map_congr_left (fun v hv => ?_)
    obtain ⟨hget, hvenue⟩ := h.openVisit hv
    unfold World.storedTotal
    rw [h.billedOrders hw hw' hget hvenue]
  rw [htotals]

end

/-! ## A party -/

section

variable {phone tableId : Id} {visit : Option Id} {w w' : World}
  (h : SameParty phone tableId visit w w')

include h

theorem SameParty.now : w.now = w'.now := congrArg PartyRows.now h.rows

theorem SameParty.seat : w.sessionByToken phone = w'.sessionByToken phone :=
  congrArg PartyRows.seat h.rows

theorem SameParty.orders : SameOrders (ofParty tableId visit) w w' :=
  ⟨congrArg PartyRows.orders h.rows, congrArg PartyRows.lines h.rows⟩

/-- **What the party has ordered.** -/
theorem SameParty.customerOrders {session : ActiveSession} (htable : session.tableId = tableId)
    (hvisit : session.visitId = visit) : w.customerOrders session = w'.customerOrders session := by
  have hrows : w.partyRows session = w'.partyRows session := by
    unfold World.partyRows
    rw [htable, hvisit, ← h.now]
    refine congrArg (orderByDesc _) ?_
    cases visit with
    | some visitId => exact h.orders.orders
    | none =>
      exact h.orders.within (fun _ _ _ hp => (Bool.and_eq_true_iff.mp hp).1)
        (fun _ _ _ hp => (Bool.and_eq_true_iff.mp hp).1) (fun _ _ _ _ => rfl)
  unfold World.customerOrders
  rw [← hrows]
  refine List.map_congr_left (fun o ho => ?_)
  obtain ⟨hget, hp⟩ := Rows.mem_filter.mp ((orderByDesc_perm _ _).mem_iff.mp ho)
  have hown : ofParty tableId visit o.2 = true := by
    rw [htable, hvisit] at hp
    cases visit with
    | some visitId => exact hp
    | none => exact (Bool.and_eq_true_iff.mp hp).1
  unfold World.customerOrder
  rw [h.orders.allItems hget hown]

/-- **The party's bill.** -/
theorem SameParty.buildBill {visitId : Id} (hvisit : visit = some visitId) :
    w.buildBill visitId = w'.buildBill visitId := by
  subst hvisit
  have hown : ∀ o : Order, o.visitId = some visitId → ofParty tableId (some visitId) o = true :=
    fun o ho => beq_iff_eq.mpr ho
  refine h.orders.buildBill (fun _ o _ => hown o) (fun _ o _ => hown o)
    (congrArg PartyRows.visit h.rows) (fun v hv => ?_)
  rw [h.seated v hv]
  exact congrArg PartyRows.table h.rows

end

/-! ## The programs in two runs -/

/-- **The two worlds are the same to who sent a staff request.** A cursor must not be another
venue's: the log goes on after any order it names. -/
structure SameStaff (token : TokenClaims) (route : StaffRoute) (w w' : World) : Prop where
  account : ∀ id, token.sub = some id → SameAccount id w w'
  venue : SameVenue token.venueId w w'
  cursor : ∀ days limit id o, route = .orderLog days limit (some id) →
    w.orders.get? id = some o ∨ w'.orders.get? id = some o → o.venueId = token.venueId

section

variable {hmac : Hmac} {bcrypt : Bcrypt} {α β : Type} {R : World → World → Prop} {u u' : World}

/-- A query is answered, or fails. -/
theorem houseExec_query (c : Choice) (q : World → α) (w : World) :
    houseExec c (.query q) w = (w, .ok (q w))
      ∨ houseExec c (.query q) w = (w, .error .failed) := by
  unfold houseExec
  split
  · exact .inr rfl
  · exact .inl rfl

theorem steady_query {Q : World → World → β → Prop} {q : World → α} {f : α → Api β}
    (h : ∀ w w', Moved u w → Moved u' w' → R w w' →
      q w = q w' ∧ (house hmac bcrypt).Steady R Moved Q w w' (f (q w))) :
    (house hmac bcrypt).Steady R Moved Q u u' ((query q).bind f) := by
  refine Sys.steady_perform (Y := house hmac bcrypt) (fun c c' w w' a a' hw hw' hR ha ha' => ?_)
  obtain ⟨hsame, hnext⟩ := h w w' hw hw' hR
  show a = a' ∧ (house hmac bcrypt).Steady R Moved Q (houseExec c _ w).1 (houseExec c' _ w').1 (f a)
  replace ha : (houseExec c (.query q) w).2 = .ok a := ha
  replace ha' : (houseExec c' (.query q) w').2 = .ok a' := ha'
  rcases houseExec_query c q w with hx | hx
  · rcases houseExec_query c' q w' with hx' | hx'
    · rw [hx] at ha ⊢
      rw [hx'] at ha' ⊢
      cases ha
      cases ha'
      exact ⟨hsame, hnext⟩
    · rw [hx'] at ha'
      cases ha'
  · rw [hx] at ha
    cases ha

/-- A call that is answered with nothing, and then what comes of it anywhere. -/
theorem steady_unit {Q : World → World → β → Prop} {op : Call} {f : Call.Res op → Api β}
    (hunit : ∀ a a' : Call.Res op, a = a')
    (h : ∀ w w' a, (house hmac bcrypt).Steady R Moved Q w w' (f a)) :
    (house hmac bcrypt).Steady R Moved Q u u' ((perform op).bind f) :=
  Sys.steady_perform (Y := house hmac bcrypt)
    (fun _ _ _ _ a a' _ _ _ _ _ => ⟨hunit a a', h _ _ a⟩)

/-! ### Staff -/

theorem accountState_steady {id : Id} (h : ∀ w w', R w w' → w.now = w'.now ∧ SameAccount id w w') :
    (house hmac bcrypt).Steady R Moved (fun _ _ _ => True) u u' (accountState id) := by
  unfold accountState
  refine steady_query (fun w w' _ _ hR => ⟨?_, ?_⟩)
  · obtain ⟨hnow, haccount⟩ := h w w' hR
    unfold World.cachedAccount
    rw [hnow, haccount.remembered]
  · cases w.cachedAccount id with
    | some state => exact trivial
    | none =>
      refine steady_query (fun w₁ w₁' _ _ hR₁ => ⟨(h w₁ w₁' hR₁).2.row, ?_⟩)
      cases w₁.staffUsers.get? id with
      | none => exact steady_unit (fun _ _ => rfl) (fun _ _ _ => trivial)
      | some user => exact steady_unit (fun _ _ => rfl) (fun _ _ _ => trivial)

theorem requireStaff_steady {token : TokenClaims} {role : Role}
    (h : ∀ w w', R w w' → w.now = w'.now ∧ ∀ id, token.sub = some id → SameAccount id w w') :
    (house hmac bcrypt).Steady R Moved
      (fun _ _ x => ∀ staff, x = some staff → Vouched (some token) staff) u u'
      (requireStaff role (some token)) := by
  have hsteady : (house hmac bcrypt).Steady R Moved (fun _ _ _ => True) u u'
      (requireStaff role (some token)) := by
    unfold requireStaff getStaff
    refine Sys.steady_bind ?_
    dsimp only
    cases hsub : token.sub with
    | none => exact trivial
    | some sub =>
      refine Sys.steady_bind (Sys.steady_mono
        (accountState_steady (fun w w' hR => ⟨(h w w' hR).1, (h w w' hR).2 sub hsub⟩))
        (fun v v' found _ => ?_))
      cases found with
      | none => exact trivial
      | some account =>
        dsimp only
        split
        · exact trivial
        · split
          · exact trivial
          · show (house hmac bcrypt).Steady R Moved _ v v' (if _ then _ else _)
            split
            · exact trivial
            · exact trivial
  exact Sys.steady_mono (Sys.steady_calls (requireStaff_aside role (some token)) hsteady)
    (fun _ _ _ hx => hx.2)

variable {token : TokenClaims} {route : StaffRoute}

/-- A read of the venue, and the answer. -/
theorem steady_read {q : World → α} {f : α → β}
    (h : ∀ w w', Coherent w → Coherent w' → SameStaff token route w w' → q w = q w') :
    (house hmac bcrypt).Steady (SameStaff token route) Moved (fun _ _ _ => True) u u'
      ((query q).bind (fun a => .ret (f a))) :=
  steady_query (fun w w' hw hw' hR => ⟨h w w' hw.1 hw'.1 hR, trivial⟩)

theorem periodReport_steady {start stop : Time} :
    (house hmac bcrypt).Steady (SameStaff token route) Moved (fun _ _ _ => True) u u'
      (periodReport token.venueId start stop) := by
  unfold periodReport
  refine steady_query (fun _ _ _ _ h => ⟨h.venue.takings start stop, ?_⟩)
  refine steady_query (fun _ _ _ _ h => ⟨h.venue.ordersPlaced start stop, ?_⟩)
  refine steady_query (fun _ _ _ _ h => ⟨h.venue.ordersRejected start stop, ?_⟩)
  exact steady_query (fun _ _ _ _ h => ⟨h.venue.itemsSold start stop, trivial⟩)

theorem getStats_steady {staff : StaffClaims} (hstaff : staff.venueId = token.venueId)
    (offset : Time) : (house hmac bcrypt).Steady (SameStaff token route) Moved (fun _ _ _ => True)
      u u' (getStats (some staff) offset) := by
  unfold getStats
  refine steady_query (fun _ _ _ _ h =>
    ⟨congrArg (fun now => dayBounds offset now 0) h.venue.now, ?_⟩)
  refine steady_query (fun _ _ _ _ h =>
    ⟨congrArg (fun now => dayBounds offset now 1) h.venue.now, ?_⟩)
  rw [hstaff]
  split
  · refine Sys.steady_bind (Sys.steady_mono periodReport_steady (fun _ _ _ _ => ?_))
    refine Sys.steady_bind (Sys.steady_mono periodReport_steady (fun _ _ _ _ => ?_))
    exact steady_read (fun w w' hw hw' h => h.venue.openTables hw hw')
  · exact trivial

/-- **The bill of a visit**, looked up by the venue first. -/
theorem getDeskBill_steady {staff : StaffClaims} (hstaff : staff.venueId = token.venueId)
    (id : Id) : (house hmac bcrypt).Steady (SameStaff token route) Moved (fun _ _ _ => True) u u'
      (getDeskBill (some staff) id) := by
  unfold getDeskBill
  dsimp only
  rw [hstaff]
  refine steady_query (fun w w' hw hw' h => ?_)
  have hvisit := h.venue.visitOf' id
  refine ⟨hvisit, ?_⟩
  cases hfound : w.visitOf id token.venueId with
  | none => exact trivial
  | some v =>
    rw [hfound] at hvisit
    obtain ⟨hv, hof⟩ := Option.filter_eq_some_iff.mp hfound
    obtain ⟨hv', _⟩ := Option.filter_eq_some_iff.mp hvisit.symm
    have hvenue : v.venueId = token.venueId := beq_iff_eq.mp hof
    refine steady_query (fun w₁ w₁' hw₁ hw₁' h₁ => ⟨?_, ?_⟩)
    · -- it is still the same visit, in either run
      exact h₁.venue.buildBill' hw₁.1 hw₁'.1
        (fun v₁ hv₁ => (hw₁.2.visits.same hv hv₁).venueId.trans hvenue)
        (fun v₁ hv₁ => (hw₁'.2.visits.same hv' hv₁).venueId.trans hvenue)
    · cases w₁.buildBill id with
      | none => exact trivial
      | some bill => exact trivial

theorem getOrders_steady {staff : StaffClaims} (hstaff : staff.venueId = token.venueId)
    {days limit : Option Text} {cursor : Option Id} :
    (house hmac bcrypt).Steady (SameStaff token (.orderLog days limit cursor)) Moved
      (fun _ _ _ => True) u u' (getOrders (fun id : Id => id) (some staff) days limit cursor) := by
  unfold getOrders
  dsimp only
  rw [hstaff]
  refine steady_query (fun _ _ _ _ h => ⟨h.venue.now, ?_⟩)
  refine steady_query (fun w w' hw hw' h => ⟨h.venue.ordersPage hw.1 (fun id hid => ?_), ?_⟩)
  · cases ho : w.orders.get? id with
    | some o =>
      exact (h.venue.order ho (h.cursor days limit id o (by rw [hid]) (.inl ho))).symm
    | none =>
      cases ho' : w'.orders.get? id with
      | none => rfl
      | some o =>
        have hback := h.venue.symm.order ho' (h.cursor days limit id o (by rw [hid]) (.inr ho'))
        exact ho.symm.trans hback
  · split
    · exact trivial
    · exact trivial

/-- **What a staff route reads is of the venue of whoever is asking.** -/
theorem staffRoute_steady {staff : Option StaffClaims}
    (hstaff : ∀ s, staff = some s → s.venueId = token.venueId) (hreads : route.writes = []) :
    (house hmac bcrypt).Steady (SameStaff token route) Moved (fun _ _ _ => True) u u'
      (route.prog bcrypt staff) := by
  cases staff with
  | none =>
    cases route with
    | deskOrders | deskBills | deskBill | exportOrders | orderLog | stats => exact trivial
    | _ => cases hreads
  | some staff =>
    have hvenue := hstaff staff rfl
    cases route with
    | deskOrders all =>
      refine Sys.steady_map (steady_read (fun w w' hw hw' h => ?_))
      rw [hvenue]
      exact h.venue.deskOrders hw hw' _
    | deskBills =>
      refine Sys.steady_map (steady_read (fun w w' hw hw' h => ?_))
      rw [hvenue]
      exact h.venue.deskBills hw hw'
    | deskBill id => exact Sys.steady_map (getDeskBill_steady hvenue id)
    | exportOrders days =>
      refine Sys.steady_map (steady_query (fun _ _ _ _ h => ⟨h.venue.now, ?_⟩))
      refine steady_read (fun w w' hw _ h => ?_)
      rw [hvenue]
      exact h.venue.exportOrders hw _
    | orderLog days limit cursor => exact Sys.steady_map (getOrders_steady hvenue)
    | stats offset => exact Sys.steady_map (getStats_steady hvenue offset)
    | _ => cases hreads

/-! ### Phones -/

section

variable {phone tableId : Id} {visit : Option Id}

theorem getActiveSession_steady :
    (house hmac bcrypt).Steady (SameParty phone tableId visit) Moved
      (fun _ _ x => ∀ session, x = some session →
        session.tableId = tableId ∧ session.visitId = visit)
      u u' (getActiveSession (some phone) none) := by
  unfold getActiveSession
  refine steady_query (fun w w' _ _ h => ⟨h.seat, ?_⟩)
  cases hfound : w.sessionByToken phone with
  | none => exact fun _ hx => by cases hx
  | some found =>
    obtain ⟨id, session, table⟩ := found
    have hhere := h.here _ hfound
    dsimp only
    split
    · exact fun _ hx => by cases hx
    · refine steady_query (fun w₁ w₁' _ _ h₁ => ⟨h₁.now, ?_⟩)
      show (house hmac bcrypt).Steady _ _ _ _ _ (if _ then _ else _)
      split
      · exact fun _ hx => by cases hx
      · split
        · exact fun _ hx => by cases hx
        · split
          · exact fun _ hx => by cases hx
          · split
            · exact fun _ hx => by cases hx
            · split
              · refine steady_unit (fun _ _ => rfl) (fun _ _ _ => ?_)
                rintro _ ⟨⟩
                exact hhere
              · rintro _ ⟨⟩
                exact hhere

theorem getCustomerOrders_steady : (house hmac bcrypt).Steady (SameParty phone tableId visit) Moved
    (fun _ _ _ => True) u u' (getCustomerOrders (some phone)) := by
  unfold getCustomerOrders
  refine Sys.steady_bind (Sys.steady_mono getActiveSession_steady (fun _ _ found hfound => ?_))
  cases found with
  | none => exact trivial
  | some session =>
    obtain ⟨htable, hvisit⟩ := hfound session rfl
    exact steady_query (fun _ _ _ _ h => ⟨h.customerOrders htable hvisit, trivial⟩)

theorem getBill_steady : (house hmac bcrypt).Steady (SameParty phone tableId visit) Moved
    (fun _ _ _ => True) u u' (getBill (some phone)) := by
  unfold getBill
  refine Sys.steady_bind (Sys.steady_mono getActiveSession_steady (fun _ _ found hfound => ?_))
  cases found with
  | none => exact trivial
  | some session =>
    obtain ⟨_, hvisit⟩ := hfound session rfl
    dsimp only
    cases hid : session.visitId with
    | none => exact trivial
    | some visitId =>
      refine steady_query (fun w _ _ _ h => ⟨h.buildBill (hvisit.symm.trans hid), ?_⟩)
      cases w.buildBill visitId with
      | none => exact trivial
      | some bill => exact trivial

end

end

/-! ## In two runs -/

/-- Two venues. The first has two tables. -/
def neighbours : World :=
  { openHouse with
    venues := Rows.ofList [⟨[], [], [7], none⟩, ⟨[], [], [6], none⟩]
    tables := Rows.ofList [⟨0, [9], [], 0, true⟩, ⟨0, [4], [], 0, true⟩, ⟨1, [8], [], 0, true⟩] }

theorem neighbours_coherent : Coherent neighbours where
  tables id t ht := by
    rcases Rows.get?_createAll ht with hnone | hrow
    · cases hnone
    · simp only [List.mem_cons, List.not_mem_nil, or_false] at hrow
      rcases hrow with rfl | rfl | rfl
      · exact ⟨_, rfl⟩
      · exact ⟨_, rfl⟩
      · exact ⟨_, rfl⟩
  visits id v hv := by cases hv
  sessions id s hs := by cases hs
  orders id o ho := by cases ho
  items id i hi := by cases hi
  edits id e he := by cases he
  deliveries id d hd := by cases hd
  staff id u hu := by
    rcases Rows.get?_createAll hu with hnone | hrow
    · cases hnone
    · exact List.mem_singleton.mp hrow ▸ ⟨_, rfl⟩
  keys id k hk := by cases hk
  news e he := by cases he

/-- An order is placed, and a request arrives, of the desk or of the phone. While its calls are
answered, guests may be scanning elsewhere. -/
def asking (req : HouseRequest) (elsewhere : List (house joined openHash).Action) (calls : ℕ) :
    List (house joined openHash).Action :=
  ordering ++ List.replicate 2 (.step 1 plain) ++ [.arrive req] ++ elsewhere
    ++ List.replicate calls (.step 2 plain)

/-- Guests scan the code of a table of the venue with this secret. -/
def scanning (code secret : Text) : List (house joined openHash).Action :=
  .arrive (.scan ⟨⟨[], []⟩, code, signTableQr joined secret code 0, 6⟩)
    :: List.replicate 9 (.step 3 plain)

/-- Two answers, found by evaluation, and the worlds they were found in. -/
theorem asked_twice (p p' : (house joined openHash).Pool) (i : ℕ) (R : World → World → Bool)
    {req : HouseRequest} (hreq : (p.threads[i]?).map (fun t => t.req) = some req)
    (hreq' : (p'.threads[i]?).map (fun t => t.req) = some req)
    (h : (p.threads[i]?).any (fun t => (p'.threads[i]?).any (fun t' =>
      t.view.past.length == t'.view.past.length
        && (t.view.past.zip t'.view.past).all (fun e => R e.1.before e.2.before)
        && (t.outcome.bind Except.toOption).isSome
        && (t'.outcome.bind Except.toOption).isSome)) = true) :
    ∃ (t t' : (house joined openHash).Thread) (a a' : HouseAnswer), t ∈ p.threads
      ∧ t' ∈ p'.threads ∧ t.req = req ∧ t'.req = req
      ∧ List.Forall₂ (fun e e' => R e.before e'.before = true) t.view.past t'.view.past
      ∧ t.outcome = some (.ok a) ∧ t'.outcome = some (.ok a') := by
  have hdone : ∀ {t : (house joined openHash).Thread},
      (t.outcome.bind Except.toOption).isSome = true → ∃ a, t.outcome = some (.ok a) := by
    intro t ht
    obtain ⟨a, ha⟩ := Option.isSome_iff_exists.mp ht
    obtain ⟨x, hx, hxa⟩ := Option.bind_eq_some_iff.mp ha
    cases x with
    | ok b => exact ⟨b, hx⟩
    | error e => cases hxa
  obtain ⟨t, ht, h⟩ := (Option.any_eq_true _ _).mp h
  obtain ⟨t', ht', h⟩ := (Option.any_eq_true _ _).mp h
  simp only [Bool.and_eq_true, beq_iff_eq] at h
  obtain ⟨⟨⟨hlen, hall⟩, ha⟩, ha'⟩ := h
  obtain ⟨a, ha⟩ := hdone ha
  obtain ⟨a', ha'⟩ := hdone ha'
  rw [ht] at hreq
  rw [ht'] at hreq'
  refine ⟨t, t', a, a', List.mem_of_getElem? ht, List.mem_of_getElem? ht', Option.some.inj hreq,
    Option.some.inj hreq', ?_, ha, ha'⟩
  exact List.forall₂_iff_zip.mpr ⟨hlen, fun he => List.all_eq_true.mp hall _ he⟩

/-- The desk's request for the board. -/
def boardAsked : HouseRequest := .staff (some ⟨some 0, 0, some 0⟩) (.deskOrders none)

section

variable (hmac : Hmac) (bcrypt : Bcrypt) (w₀ w₀' : World)
  (acts acts' : List (house hmac bcrypt).Action) (t t' : (house hmac bcrypt).Thread)

/-- Along a run the rows agree, and history is kept. -/
theorem house_moves {w₀ : World} (h₀ : Coherent w₀) (acts : List (house hmac bcrypt).Action) :
    (house hmac bcrypt).Moves Moved w₀ acts :=
  fun pre mid _ _ => house_moved hmac bcrypt w₀ pre mid h₀

/-- **Staff are shown their own venue.** -/
theorem shown_own_venue (token : TokenClaims) (route : StaffRoute) (a a' : HouseAnswer)
    (h₀ : Coherent w₀) (h₀' : Coherent w₀') (ht : t ∈ (houseRun hmac bcrypt w₀ acts).threads)
    (ht' : t' ∈ (houseRun hmac bcrypt w₀' acts').threads) (hreq : t.req = .staff (some token) route)
    (hreq' : t'.req = .staff (some token) route) (hreads : route.writes = [])
    (hsame : List.Forall₂ (fun e e' => SameStaff token route e.before e'.before)
      t.view.past t'.view.past)
    (ha : t.outcome = some (.ok a)) (ha' : t'.outcome = some (.ok a')) : a = a' := by
  refine Sys.same_answer (house_moves hmac bcrypt h₀ acts)
    (house_moves hmac bcrypt h₀' acts') ht ht' (hreq'.trans hreq.symm)
    (R := SameStaff token route) (Q := fun _ _ _ => True) ?_ hsame ha ha'
  rw [hreq]
  refine Sys.steady_bind (Sys.steady_mono (requireStaff_steady (fun w w' h =>
    ⟨h.venue.now, h.account⟩)) (fun _ _ found hfound => staffRoute_steady (fun s hs => ?_) hreads))
  obtain ⟨staff, rfl, rfl⟩ := Option.map_eq_some_iff.mp hs
  obtain ⟨c, hc, hvenue, _⟩ := hfound staff rfl
  cases hc
  exact hvenue

/-- **A phone is shown its own party.** -/
theorem shown_own_party (phone tableId : Id) (visit : Option Id) (a a' : HouseAnswer)
    (h₀ : Coherent w₀) (h₀' : Coherent w₀') (ht : t ∈ (houseRun hmac bcrypt w₀ acts).threads)
    (ht' : t' ∈ (houseRun hmac bcrypt w₀' acts').threads)
    (hreq : t.req = .orders (some phone) ∨ t.req = .bill (some phone)) (hreq' : t'.req = t.req)
    (hsame : List.Forall₂ (fun e e' => SameParty phone tableId visit e.before e'.before)
      t.view.past t'.view.past)
    (ha : t.outcome = some (.ok a)) (ha' : t'.outcome = some (.ok a')) : a = a' := by
  refine Sys.same_answer (house_moves hmac bcrypt h₀ acts)
    (house_moves hmac bcrypt h₀' acts') ht ht' hreq'
    (R := SameParty phone tableId visit) (Q := fun _ _ _ => True) ?_ hsame ha ha'
  rcases hreq with hreq | hreq
  · rw [hreq]
    exact Sys.steady_map getCustomerOrders_steady
  · rw [hreq]
    exact Sys.steady_map getBill_steady

end

/-- The board is the same whether guests scan at the other venue, while it is asked for, or
not. -/
theorem shown_own_venue_neighbours : ∃ (t t' : (house joined openHash).Thread) (a a' : HouseAnswer),
    t ∈ (houseRun joined openHash neighbours (asking boardAsked [] 4)).threads
    ∧ t' ∈ (houseRun joined openHash neighbours
      (asking boardAsked (scanning [8] [6]) 4)).threads
    ∧ t.outcome = some (.ok a) ∧ t'.outcome = some (.ok a') ∧ a = a' := by
  obtain ⟨t, t', a, a', ht, ht', hreq, hreq', hsame, ha, ha'⟩ := asked_twice
    (houseRun joined openHash neighbours (asking boardAsked [] 4))
    (houseRun joined openHash neighbours (asking boardAsked (scanning [8] [6]) 4)) 2
    (fun w w' => decide (w.rowsOfVenue 0 = w'.rowsOfVenue 0
      ∧ w.staffUsers.get? 0 = w'.staffUsers.get? 0 ∧ w.accountCache 0 = w'.accountCache 0))
    rfl rfl (by decide +kernel)
  refine ⟨t, t', a, a', ht, ht', ha, ha', shown_own_venue joined openHash neighbours neighbours _ _
    t t' _ _ a a' neighbours_coherent neighbours_coherent ht ht' hreq hreq' rfl
    (hsame.imp (fun e e' h => ?_)) ha ha'⟩
  obtain ⟨hrows, haccount, hremembered⟩ := of_decide_eq_true h
  refine ⟨fun id hid => ?_, hrows, fun _ _ _ _ h => by cases h⟩
  cases hid
  exact ⟨haccount, hremembered⟩

/-- The phone's list is the same whether guests scan at the next table or not. -/
theorem shown_own_party_neighbours : ∃ (t t' : (house joined openHash).Thread) (a a' : HouseAnswer),
    t ∈ (houseRun joined openHash neighbours (asking (.orders (some 5)) [] 3)).threads
    ∧ t' ∈ (houseRun joined openHash neighbours
      (asking (.orders (some 5)) (scanning [4] [7]) 3)).threads
    ∧ t.outcome = some (.ok a) ∧ t'.outcome = some (.ok a') ∧ a = a' := by
  obtain ⟨t, t', a, a', ht, ht', hreq, hreq', hsame, ha, ha'⟩ := asked_twice
    (houseRun joined openHash neighbours (asking (.orders (some 5)) [] 3))
    (houseRun joined openHash neighbours (asking (.orders (some 5)) (scanning [4] [7]) 3)) 2
    (fun w w' => decide (w.rowsOfParty 5 0 (some 0) = w'.rowsOfParty 5 0 (some 0)
      ∧ (w.sessionByToken 5).all (fun f => f.2.1.tableId == 0 && f.2.1.visitId == some 0)
      ∧ (w.tableVisits.get? 0).all (fun v => v.tableId == 0)))
    rfl rfl (by decide +kernel)
  refine ⟨t, t', a, a', ht, ht', ha, ha', shown_own_party joined openHash neighbours neighbours _ _
    t t' 5 0 (some 0) a a' neighbours_coherent neighbours_coherent ht ht' (.inl hreq)
    (hreq'.trans hreq.symm) (hsame.imp (fun e e' h => ?_)) ha ha'⟩
  obtain ⟨hrows, hhere, hseated⟩ := of_decide_eq_true h
  refine ⟨hrows, fun found hfound => ?_, fun v hv => ?_⟩
  · have hall := (Option.all_eq_true _ _).mp hhere found hfound
    rw [Bool.and_eq_true, beq_iff_eq, beq_iff_eq] at hall
    exact hall
  · exact beq_iff_eq.mp ((Option.all_eq_true _ _).mp hseated v hv)

end Masadan
