import Mathlib.Data.List.Sort
import Masadan.Calls

/-!
# Visits and bills

`src/lib/visit.ts`: the lifecycle of one party's stay at a table, and the
bill it covers; with it the two other places a visit's money is shown, the
desk's list of open tables (`api/desk/bills`) and the day's summary
(`openTables` in `src/lib/reporting.ts`).
-/

namespace Masadan

/-- `orderBy: { key: "asc" }`. Rows with equal keys stay as they were. -/
def orderBy {α : Type} (key : α → ℤ) (l : List α) : List α :=
  l.insertionSort (fun a b => key a ≤ key b)

/-- `orderBy: { key: "desc" }`. -/
def orderByDesc {α : Type} (key : α → ℤ) (l : List α) : List α :=
  l.insertionSort (fun a b => key b ≤ key a)

theorem orderBy_perm {α : Type} (key : α → ℤ) (l : List α) : (orderBy key l).Perm l :=
  List.perm_insertionSort _ l

theorem orderByDesc_perm {α : Type} (key : α → ℤ) (l : List α) : (orderByDesc key l).Perm l :=
  List.perm_insertionSort _ l

/-- `ABANDON_AFTER_MS`: three hours. -/
def ABANDON_AFTER_MS : ℤ := 3 * 60 * 60 * 1000

structure BillLine where
  name : Text
  qty : ℕ
  unitPriceKurus : ℤ
  lineTotalKurus : ℤ
  note : Text
  modifiers : List Text
  deriving DecidableEq, Repr

structure BillPhone where
  sessionId : Id
  label : Text
  totalKurus : ℤ
  deriving DecidableEq, Repr

structure Bill where
  visitId : Id
  tableId : Id
  tableName : Text
  status : VisitStatus
  openedAt : Time
  billRequestedAt : Option Time
  lines : List BillLine
  totalKurus : ℤ
  phones : List BillPhone
  orderCount : ℕ
  /-- Exactly the orders the total covers; settlement marks these paid. -/
  orderIds : List Id
  deriving Repr

/-! ## Opening a visit -/

/-- The visits that occupy a table. -/
def World.openVisitsOf (w : World) (tableId : Id) : List (Id × TableVisit) :=
  w.tableVisits.filter (fun _ v => v.tableId == tableId && OPEN_VISIT_STATUSES.contains v.status)

/-- The open visit for a table, creating one if the table is idle. A scan that
finds it was not alone keeps the older visit and discards its own. -/
def openOrJoinVisit (tableId venueId : Id) : Api Id := do
  let existing ← query (fun w =>
    (orderByDesc (fun v => v.2.openedAt) (w.openVisitsOf tableId)).head?.map Prod.fst)
  match existing with
  | some id => return id
  | none =>
    let created : Id ← perform (.tableVisitCreate tableId venueId)
    let opened ← query (fun w =>
      (orderBy (fun v => v.2.openedAt) (w.openVisitsOf tableId)).map Prod.fst)
    match opened with
    | oldest :: _ :: _ =>
      if oldest = created then return created
      else
        let _ ← (perform (.tableVisitDelete created)).attempt
        return oldest
    | _ => return created

/-! ## The bill -/

/-- The lines of an order that staff have not voided. -/
def World.liveItems (w : World) (orderId : Id) : List (Id × OrderItem) :=
  w.orderItems.filter (fun _ i => i.orderId == orderId && i.voidedAt.isNone)

/-- What a line is owed for. -/
def OrderItem.lineTotal (i : OrderItem) : ℤ := i.unitPriceKurus * i.qty

/-- What an order's live lines come to. -/
def World.liveTotal (w : World) (orderId : Id) : ℤ :=
  ((w.liveItems orderId).map (fun i => i.2.lineTotal)).sum

/-- A visit's orders that are neither refused nor withdrawn. -/
def World.billedOrders (w : World) (visitId : Id) : List (Id × Order) :=
  w.orders.filter (fun _ o => o.visitId == some visitId && notVoid o.status)

def OrderItem.billLine (i : OrderItem) : BillLine where
  name := i.nameSnapshot
  qty := i.qty
  unitPriceKurus := i.unitPriceKurus
  lineTotalKurus := i.lineTotal
  note := i.note
  modifiers := i.modifiers.map Prod.fst

/-- `perPhone.set(id, (perPhone.get(id) ?? 0) + amount)`. A map lists its keys
in the order they were first set. -/
def addTo (perPhone : List (Id × ℤ)) (id : Id) (amount : ℤ) : List (Id × ℤ) :=
  match perPhone with
  | [] => [(id, 0 + amount)]
  | (k, total) :: rest =>
    if k = id then (k, total + amount) :: rest else (k, total) :: addTo rest id amount

/-- **Itemised bill for a visit, with the per-phone split.** -/
def World.buildBill (w : World) (visitId : Id) : Option Bill :=
  match w.tableVisits.get? visitId with
  | none => none
  | some visit =>
    let orders := orderBy (fun o => o.2.createdAt) (w.billedOrders visitId)
    let lines := orders.flatMap (fun o => (w.liveItems o.1).map (fun i => i.2.billLine))
    let perPhone := orders.foldl (fun m o => addTo m o.2.sessionId (w.liveTotal o.1)) []
    some {
      visitId := visitId
      tableId := visit.tableId
      tableName := ((w.tables.get? visit.tableId).map (fun t => t.name)).getD []
      status := visit.status
      openedAt := visit.openedAt
      billRequestedAt := visit.billRequestedAt
      lines := lines
      totalKurus := (lines.map (fun l => l.lineTotalKurus)).sum
      phones := perPhone.mapIdx (fun i p => ⟨p.1, text s!"Telefon {i + 1}", p.2⟩)
      orderCount := orders.length
      orderIds := orders.map Prod.fst }

/-! ## Asking for the bill -/

/-- A visit of the venue. -/
def World.visitOf (w : World) (visitId venueId : Id) : Option TableVisit :=
  (w.tableVisits.get? visitId).filter (fun v => v.venueId == venueId)

/-- Customer asked for the bill. Asking twice is not an error. -/
def requestBill (visitId venueId : Id) : Api Bool := do
  let found ← query (fun w => w.visitOf visitId venueId)
  match found with
  | none => return false
  | some visit =>
    if visit.status = .closed then return false
    else
      if visit.status ≠ .bill_requested then
        let _ ← perform (.tableVisitUpdate visitId (fun now v =>
          { v with status := .bill_requested, billRequestedAt := some now }))
        let _ ← perform (.publish (.bill_requested venueId visitId visit.tableId))
        return true
      else
        let _ ← perform (.publish (.bill_requested venueId visitId visit.tableId))
        return true

/-- Staff dismissed the request without settling. -/
def clearBillRequest (visitId venueId : Id) : Api Bool := do
  let found ← query (fun w => w.visitOf visitId venueId)
  match found with
  | none => return false
  | some visit =>
    if visit.status ≠ .bill_requested then return false
    else
      let _ ← perform (.tableVisitUpdate visitId (fun _ v =>
        { v with status := .opened, billRequestedAt := none }))
      let _ ← perform (.publish (.bill_updated venueId visitId visit.tableId))
      return true

/-! ## Settlement -/

inductive SettleError where
  | not_found | already_closed | orders_in_flight
  deriving DecidableEq, Repr

structure SettleInput where
  paymentMethod : PaymentMethod
  paidAmountKurus : Option ℤ
  staffId : Id
  force : Bool

/-- What the close of a settlement writes into the visit. -/
def SettleInput.close (input : SettleInput) (totalKurus : ℤ) (now : Time)
    (v : TableVisit) : TableVisit :=
  { v with
    status := .closed
    closedAt := some now
    closedReason := some .settled
    totalKurus := some totalKurus
    paymentMethod := some input.paymentMethod
    paidAmountKurus := some (input.paidAmountKurus.getD totalKurus)
    closedByStaffId := some input.staffId
    billRequestedAt := none }

/-- The sessions of a visit that nobody has revoked. -/
def World.unrevokedSessions (w : World) (visitId : Id) : List Id :=
  (w.tableSessions.filter (fun _ s => s.visitId == some visitId && s.revokedAt.isNone)).map
    Prod.fst

/-- The check for orders still in the kitchen, which `force` skips. -/
def ordersInFlight (visitId : Id) (force : Bool) : Api ℕ :=
  if force then return 0
  else query (fun w => w.orders.count (fun _ o =>
    o.visitId == some visitId && IN_FLIGHT_STATUSES.contains o.status))

/-- The settlement from the bill on: the total, the conditional close with the
orders and the sessions, and the news.

The revocation's `where` sees the sessions committed when its statement runs,
which may be before others commit and before the transaction does; it is the
last read here, and the writes follow together. -/
def takePayment (visitId venueId tableId : Id) (input : SettleInput) :
    Api (Except SettleError ℤ) := do
  let bill ← query (fun w => w.buildBill visitId)
  let totalKurus := (bill.map (fun b => b.totalKurus)).getD 0
  let sessionIds ← query (fun w => w.unrevokedSessions visitId)
  let count : ℕ ← perform (.settleTransaction visitId (input.close totalKurus)
    ((bill.map (fun b => b.orderIds)).getD []) input.paymentMethod sessionIds)
  if count = 0 then return .error .already_closed
  else
    let _ ← perform (.publish (.visit_closed venueId visitId tableId))
    return .ok totalKurus

/-- **Staff took payment at the till.** Everything runs in one transaction, and
the close is conditional on the visit not being closed. -/
def settleVisit (visitId venueId : Id) (input : SettleInput) :
    Api (Except SettleError ℤ) := do
  let found ← query (fun w => w.visitOf visitId venueId)
  match found with
  | none => return .error .not_found
  | some visit =>
    if visit.status = .closed then return .error .already_closed
    else
      let inFlight ← ordersInFlight visitId input.force
      if inFlight > 0 then return .error .orders_in_flight
      else takePayment visitId venueId visit.tableId input

/-! ## Abandoned visits -/

/-- The visits the sweep finds abandoned: open for long, no session still alive,
and nothing ordered recently. -/
def World.staleVisits (w : World) : List (Id × TableVisit) :=
  let cutoff := w.now - ABANDON_AFTER_MS
  w.tableVisits.filter (fun id v =>
    OPEN_VISIT_STATUSES.contains v.status && decide (v.openedAt < cutoff)
      && (w.tableSessions.find? (fun _ s => s.visitId == some id && s.revokedAt.isNone
          && decide (s.expiresAt > w.now))).isNone
      && (w.orders.find? (fun _ o => o.visitId == some id
          && decide (o.createdAt > cutoff))).isNone)

/-- What the sweep writes into an abandoned visit. -/
def abandon (totalKurus : ℤ) (now : Time) (v : TableVisit) : TableVisit :=
  { v with
    status := .closed
    closedAt := some now
    closedReason := some .abandoned
    totalKurus := some totalKurus }

/-- The loop of `closeAbandonedVisits`. -/
def closeEach : List (Id × TableVisit) → Api Unit
  | [] => return ()
  | visit :: rest => do
    let bill ← query (fun w => w.buildBill visit.1)
    let _ ← perform (.tableVisitUpdate visit.1
      (abandon ((bill.map (fun b => b.totalKurus)).getD 0)))
    let _ ← perform (.publish (.visit_closed visit.2.venueId visit.1 visit.2.tableId))
    closeEach rest

/-- Closes visits abandoned without settlement. -/
def closeAbandonedVisits : Api ℕ := do
  let stale ← query (fun w => w.staleVisits)
  closeEach stale
  return stale.length

/-! ## The other bill views -/

/-- One row of the desk's list of open tables. -/
structure DeskBill where
  visitId : Id
  tableId : Id
  tableName : Text
  status : VisitStatus
  openedAt : Time
  billRequestedAt : Option Time
  totalKurus : ℤ
  orderCount : ℕ
  phoneCount : ℕ
  deriving DecidableEq, Repr

/-- A visit's total as the stored order totals give it. -/
def World.storedTotal (w : World) (visitId : Id) : ℤ :=
  ((w.billedOrders visitId).map (fun o => o.2.totalKurus)).sum

/-- Visits of the venue still on the floor. -/
def World.openVisitsOfVenue (w : World) (venueId : Id) : List (Id × TableVisit) :=
  w.tableVisits.filter (fun _ v => v.venueId == venueId && OPEN_VISIT_STATUSES.contains v.status)

def World.deskBill (w : World) (v : Id × TableVisit) : DeskBill where
  visitId := v.1
  tableId := v.2.tableId
  tableName := ((w.tables.get? v.2.tableId).map (fun t => t.name)).getD []
  status := v.2.status
  openedAt := v.2.openedAt
  billRequestedAt := v.2.billRequestedAt
  totalKurus := w.storedTotal v.1
  orderCount := (w.billedOrders v.1).length
  phoneCount := ((w.billedOrders v.1).map (fun o => o.2.sessionId)).dedup.length

/-- `orderBy: [{ billRequestedAt: "asc" }, { openedAt: "asc" }]`; rows without
a bill request come last. -/
def billQueue (a b : Id × TableVisit) : Bool :=
  match a.2.billRequestedAt, b.2.billRequestedAt with
  | some x, some y => decide (x < y) || (x == y && decide (a.2.openedAt ≤ b.2.openedAt))
  | some _, none => true
  | none, some _ => false
  | none, none => decide (a.2.openedAt ≤ b.2.openedAt)

/-- `GET /api/desk/bills`: open tables, for the desk's bill view. -/
def World.deskBills (w : World) (venueId : Id) : List DeskBill :=
  (((w.openVisitsOfVenue venueId).insertionSort (fun a b => billQueue a b)).map
    w.deskBill).filter (fun b => decide (b.orderCount > 0) || b.status == .bill_requested)

structure OpenTablesSummary where
  count : ℕ
  runningKurus : ℤ
  billRequested : ℕ
  deriving DecidableEq, Repr

/-- `openTables`: what is on the floor right now. -/
def World.openTables (w : World) (venueId : Id) : OpenTablesSummary where
  count := (w.openVisitsOfVenue venueId).length
  runningKurus := ((w.openVisitsOfVenue venueId).map (fun v => w.storedTotal v.1)).sum
  billRequested :=
    ((w.openVisitsOfVenue venueId).filter (fun v => v.2.status == .bill_requested)).length

end Masadan
