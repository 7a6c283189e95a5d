import Masadan.Schema
import Masadan.Rely

/-!
# The calls handlers make

What a handler does to the world it does through calls: a Prisma query, a
Prisma write, a transaction, a row of the abuse ledger, an event on the bus, a
job left running in the background. `Call` lists them and `World.exec` says what
each does. A call is atomic and sees committed data, which is what one
statement under READ COMMITTED is promised; everything between two calls may
be interleaved with anything.

A `where` is a condition on rows and a `data` is a change of a row. Both are
handed the time of the call, for the `new Date()` in them.

**Transactions.** The statements a transaction only reads with are calls of
their own, so others may commit between them. Its writes become visible
together, when it commits, so they are one call. A conditional update inside
a transaction locks the row it matches, and nobody else changes that row
before the commit; so evaluating its condition at the commit, as the
transaction calls below do, gives what evaluating it at the statement gives.
-/

namespace Masadan

/-- A column a unique index is over. -/
inductive Column where
  | venueId | number | sessionId | idempotencyKey | email | code
  deriving DecidableEq, Repr

/-- What a call can throw, after Prisma's error codes. -/
inductive DbError where
  /-- A unique index refused the row; `target` names the index's columns. -/
  | p2002 (target : List Column)
  /-- A foreign key refers to no row. -/
  | p2003
  /-- The row to update, delete or find is not there. -/
  | p2025
  /-- The call failed: connection, timeout, crash of the database. -/
  | failed
  deriving DecidableEq, Repr

/-- The columns of a new order. -/
structure NewOrder where
  venueId : Id
  tableId : Id
  sessionId : Id
  visitId : Option Id
  number : ℕ
  totalKurus : ℤ
  idempotencyKey : Option Text

/-- What a column `Int` holds, a signed integer of 32 bits. -/
def fitsInt (x : ℤ) : Bool := decide (-2147483648 ≤ x ∧ x ≤ 2147483647)

/-- The amounts of the row fit their columns. -/
def NewOrder.fits (data : NewOrder) : Bool := fitsInt data.number && fitsInt data.totalKurus

/-- A line of a new order. -/
structure NewOrderItem where
  itemId : Id
  nameSnapshot : Text
  unitPriceKurus : ℤ
  qty : ℕ
  note : Text
  modifiers : List (Text × ℤ)

/-- And those of a line. -/
def NewOrderItem.fits (i : NewOrderItem) : Bool := fitsInt i.unitPriceKurus && fitsInt i.qty

/-- The row of a new line. -/
def NewOrderItem.row (orderId : Id) (i : NewOrderItem) : OrderItem where
  orderId := orderId
  itemId := some i.itemId
  nameSnapshot := i.nameSnapshot
  unitPriceKurus := i.unitPriceKurus
  qty := i.qty
  note := i.note
  modifiers := i.modifiers
  voidedAt := none

/-- One line's change inside an edit: the quantity it was computed from, and
the new one. -/
structure LineEdit where
  id : Id
  fromQty : ℕ
  toQty : ℕ

/-- The columns of a new row of the edit history. -/
structure NewOrderEdit where
  staffId : Id
  staffName : Text
  changes : List LineChange
  afterPrint : Bool

/-- The columns of a new row of the outbox. -/
structure NewPosDelivery where
  venueId : Id
  orderId : Id
  adapter : AdapterName
  payload : Payload

/-- The columns of a new row of the abuse ledger. -/
structure NewOrderAttempt where
  outcome : AttemptOutcome
  ip : Text
  userAgent : Text
  detail : Text
  venueId : Option Id
  tableId : Option Id
  sessionId : Option Id
  orderId : Option Id

/-- The columns of a new session. -/
structure NewTableSession where
  tableId : Id
  venueId : Id
  token : ℕ
  visitId : Id
  /-- How long from now the session lasts at most. -/
  lifetime : Time

/-- The columns of a new table. -/
structure NewTable where
  venueId : Id
  name : Text
  code : Text

/-- The columns of a new account. -/
structure NewStaffUser where
  venueId : Id
  email : Text
  name : Text
  role : Role
  passwordHash : Text

/-- A job a handler leaves running: the delivery of an order's ticket. -/
structure Job where
  orderId : Id
  amendment : Option Amendment
  deriving DecidableEq, Repr

/-- **The calls.** -/
inductive Call : Type 1 where
  /-- Any read. -/
  | query {β : Type} (q : World → β)
  | orderUpdate (id : Id) (data : Order → Order)
  | orderUpdateMany (cond : Id → Order → Bool) (data : Order → Order)
  | orderCreate (data : NewOrder) (items : List NewOrderItem)
  /-- The transaction of `editOrder`. -/
  | orderEditTransaction (orderId : Id) (statuses : List OrderStatus) (edits : List LineEdit)
      (totalKurus : ℤ) (entry : NewOrderEdit)
  | tableVisitCreate (tableId venueId : Id)
  | tableVisitDelete (id : Id)
  | tableVisitUpdate (id : Id) (data : Time → TableVisit → TableVisit)
  /-- The writes of `settleVisit`'s transaction. -/
  | settleTransaction (visitId : Id) (data : Time → TableVisit → TableVisit)
      (orderIds : List Id) (provider : PaymentMethod) (sessionIds : List Id)
  | tableSessionCreate (data : NewTableSession)
  | tableSessionUpdate (id : Id) (data : Time → TableSession → TableSession)
  | tableSessionUpdateMany (cond : Id → TableSession → Bool)
      (data : Time → TableSession → TableSession)
  | posDeliveryCreate (data : NewPosDelivery)
  | posDeliveryUpdate (id : Id) (data : PosDelivery → PosDelivery)
  | posDeliveryUpdateMany (cond : Time → Id → PosDelivery → Bool)
      (data : PosDelivery → PosDelivery)
  | orderAttemptCreate (row : NewOrderAttempt)
  | tableCreate (data : NewTable)
  | tableUpdate (id : Id) (data : Table → Table)
  /-- The transaction of `regenerateQr`. -/
  | regenerateTransaction (tableId : Id) (sessionIds : List Id)
  /-- The transaction of `rotateQrSecret`. -/
  | rotateTransaction (venueId : Id) (secret : Text) (sessionIds : List Id)
  | staffUserCreate (data : NewStaffUser)
  | staffUserUpdate (id : Id) (data : StaffUser → StaffUser)
  /-- Remember an account, or forget it. -/
  | accountCacheSet (id : Id) (state : Time → AccountState)
  | accountCacheDelete (id : Id)
  /-- What a handler does with the limiter's windows without waiting. -/
  | limiter {β : Type} (f : Time → List (Text × Window) → List (Text × Window) × β)
  | publish (event : BusEvent)
  /-- Start a job and do not wait for it. -/
  | background (job : Job)

/-- What each call is answered with. -/
abbrev Call.Res : Call → Type
  | .query (β := β) _ => β
  | .orderUpdate _ _ => Order
  | .orderUpdateMany _ _ => ℕ
  | .orderCreate _ _ => Id × ℕ
  | .orderEditTransaction .. => Bool
  | .tableVisitCreate _ _ => Id
  | .tableVisitDelete _ => Unit
  | .tableVisitUpdate _ _ => Unit
  | .settleTransaction .. => ℕ
  | .tableSessionCreate _ => Id
  | .tableSessionUpdate _ _ => Unit
  | .tableSessionUpdateMany _ _ => ℕ
  | .posDeliveryCreate _ => Id
  | .posDeliveryUpdate _ _ => Unit
  | .posDeliveryUpdateMany _ _ => ℕ
  | .orderAttemptCreate _ => Unit
  | .tableCreate _ => Id
  | .tableUpdate _ _ => Unit
  | .regenerateTransaction _ _ => Unit
  | .rotateTransaction .. => ℕ
  | .staffUserCreate _ => Id
  | .staffUserUpdate _ _ => Unit
  | .accountCacheSet _ _ => Unit
  | .accountCacheDelete _ => Unit
  | .limiter (β := β) _ => β
  | .publish _ => Unit
  | .background _ => Unit

/-- The signature of the handlers. -/
abbrev api : Sig where
  Op := Call
  Res := Call.Res
  Err := DbError

/-- A handler, or a part of one. -/
abbrev Api (α : Type) := Prog api α

/-- What the scheduler decides about a call: whether it fails, and which of two
violated unique indexes is reported. -/
structure Choice where
  fault : Bool
  numberIndex : Bool
  deriving DecidableEq, Repr

/-- The `where` of a line's update: the line, under the quantity the edit was
computed from. -/
def LineEdit.hits (e : LineEdit) (id : Id) (i : OrderItem) : Bool :=
  id == e.id && i.qty == e.fromQty && i.voidedAt.isNone

/-- The `data` of a line's update: the new quantity, a zero voiding the line. -/
def LineEdit.apply (e : LineEdit) (now : Time) (i : OrderItem) : OrderItem :=
  if e.toQty = 0 then { i with qty := 0, voidedAt := some now } else { i with qty := e.toQty }

/-- What a settlement writes into an order it covers. -/
def markPaid (provider : PaymentMethod) (o : Order) : Order :=
  { o with paymentStatus := .paid, paymentProvider := some provider }

/-- What revoking a session writes into it. -/
def revoke (now : Time) (s : TableSession) : TableSession := { s with revokedAt := some now }

namespace World

/-! ## Orders -/

def orderUpdate (w : World) (id : Id) (data : Order → Order) : World × Except DbError Order :=
  match w.orders.get? id with
  | none => (w, .error .p2025)
  | some o => ({ w with orders := w.orders.updateAt id data }, .ok (data o))

/-- Whether a row already holds the ticket number. -/
def numberTaken (w : World) (venueId : Id) (number : ℕ) : Bool :=
  (w.orders.find? (fun _ o => o.venueId == venueId && o.number == number)).isSome

/-- Whether a row already holds the session's key; rows without a key never
clash. -/
def keyTaken (w : World) (sessionId : Id) (key : Option Text) : Bool :=
  key.isSome &&
    (w.orders.find? (fun _ o => o.sessionId == sessionId && o.idempotencyKey == key)).isSome

/-- The rows of an order and its lines, inserted. -/
def insertOrder (w : World) (data : NewOrder) (items : List NewOrderItem) : World :=
  { w with
    orders := w.orders.create
      { venueId := data.venueId, tableId := data.tableId, sessionId := data.sessionId,
        visitId := data.visitId, number := data.number, status := .received,
        rejectReason := none, totalKurus := data.totalKurus, paymentStatus := .unpaid,
        paymentProvider := none, idempotencyKey := data.idempotencyKey, createdAt := w.now }
    orderItems := w.orderItems.createAll (items.map (NewOrderItem.row w.orders.next)) }

/-- Insert an order, then its lines. A number that is no `Int` fails the call. A violated
unique index is reported by its columns; when both are violated either may be. A visit
that is not there is refused. -/
def orderCreate (c : Choice) (w : World) (data : NewOrder) (items : List NewOrderItem) :
    World × Except DbError (Id × ℕ) :=
  let onNumber := w.numberTaken data.venueId data.number
  let onKey := w.keyTaken data.sessionId data.idempotencyKey
  if !data.fits then (w, .error .failed)
  else if onNumber && (!onKey || c.numberIndex) then (w, .error (.p2002 [.venueId, .number]))
  else if onKey then (w, .error (.p2002 [.sessionId, .idempotencyKey]))
  else if data.visitId.any (fun v => (w.tableVisits.get? v).isNone) then (w, .error .p2003)
  else if !items.all NewOrderItem.fits then (w, .error .failed)
  else (w.insertOrder data items, .ok (w.orders.next, data.number))

/-- The line updates of an edit, one after another: each matches the line only
under the quantity it was computed from, and a line that does not match aborts
the transaction. -/
def applyEdits (now : Time) : List LineEdit → Rows OrderItem → Option (Rows OrderItem)
  | [], items => some items
  | e :: es, items =>
    if items.count e.hits = 0 then none
    else applyEdits now es (items.update e.hits (e.apply now))

/-- The `where` of the total's update: the order, while it has one of the
statuses. -/
def editable (orderId : Id) (statuses : List OrderStatus) (id : Id) (o : Order) : Bool :=
  id == orderId && statuses.contains o.status

/-- The transaction of `editOrder`: the lines, then the order's total while the
order is still editable, then the history row. It answers whether it committed;
an aborted one leaves nothing behind. -/
def orderEditTransaction (w : World) (orderId : Id) (statuses : List OrderStatus)
    (edits : List LineEdit) (totalKurus : ℤ) (entry : NewOrderEdit) : World × Bool :=
  match applyEdits w.now edits w.orderItems with
  | none => (w, false)
  | some items =>
    if w.orders.count (editable orderId statuses) = 0 then (w, false)
    else ({ w with
      orderItems := items
      orders := w.orders.update (editable orderId statuses)
        (fun o => { o with totalKurus := totalKurus })
      orderEdits := w.orderEdits.create
        { orderId := orderId, staffId := entry.staffId, staffName := entry.staffName,
          changes := entry.changes, afterPrint := entry.afterPrint, createdAt := w.now } }, true)

/-! ## Visits and sessions -/

/-- Insert an open visit. -/
def tableVisitCreate (w : World) (tableId venueId : Id) : World :=
  { w with
    tableVisits := w.tableVisits.create
      { venueId := venueId, tableId := tableId, status := .opened, openedAt := w.now,
        billRequestedAt := none, closedAt := none, closedReason := none, totalKurus := none,
        paymentMethod := none, paidAmountKurus := none, closedByStaffId := none } }

/-- A visit is deleted; sessions and orders that referred to it refer to
none (`ON DELETE SET NULL`). -/
def tableVisitDelete (w : World) (id : Id) : World × Except DbError Unit :=
  match w.tableVisits.get? id with
  | none => (w, .error .p2025)
  | some _ => ({ w with
      tableVisits := w.tableVisits.erase (fun k _ => k == id)
      tableSessions := w.tableSessions.update (fun _ s => s.visitId == some id)
        (fun s => { s with visitId := none })
      orders := w.orders.update (fun _ o => o.visitId == some id)
        (fun o => { o with visitId := none }) }, .ok ())

def tableVisitUpdate (w : World) (id : Id) (data : Time → TableVisit → TableVisit) :
    World × Except DbError Unit :=
  match w.tableVisits.get? id with
  | none => (w, .error .p2025)
  | some _ => ({ w with tableVisits := w.tableVisits.updateAt id (data w.now) }, .ok ())

/-- The `where` of the close: the visit, while it is not closed. -/
def closable (visitId id : Id) (v : TableVisit) : Bool := id == visitId && v.status != .closed

/-- The writes of `settleVisit`: the close, conditional on the visit not being
closed, and then the orders named and the sessions named. It answers how many
visits were closed; when none was, nothing else is written. -/
def settleTransaction (w : World) (visitId : Id) (data : Time → TableVisit → TableVisit)
    (orderIds : List Id) (provider : PaymentMethod) (sessionIds : List Id) : World × ℕ :=
  let count := w.tableVisits.count (closable visitId)
  if count = 0 then (w, 0)
  else ({ w with
    tableVisits := w.tableVisits.update (closable visitId) (data w.now)
    orders := w.orders.update (fun id _ => orderIds.contains id) (markPaid provider)
    tableSessions := w.tableSessions.update (fun id _ => sessionIds.contains id)
      (revoke w.now) }, count)

/-- Insert a session; its visit must be there. -/
def tableSessionCreate (w : World) (data : NewTableSession) : World × Except DbError Id :=
  if (w.tableVisits.get? data.visitId).isNone then (w, .error .p2003)
  else ({ w with
    tableSessions := w.tableSessions.create
      { venueId := data.venueId, tableId := data.tableId, token := data.token,
        visitId := some data.visitId, createdAt := w.now, lastSeenAt := w.now,
        expiresAt := w.now + data.lifetime, revokedAt := none } }, .ok w.tableSessions.next)

def tableSessionUpdate (w : World) (id : Id) (data : Time → TableSession → TableSession) :
    World × Except DbError Unit :=
  match w.tableSessions.get? id with
  | none => (w, .error .p2025)
  | some _ => ({ w with tableSessions := w.tableSessions.updateAt id (data w.now) }, .ok ())

/-! ## The outbox and the ledger -/

/-- Insert a pending delivery. -/
def posDeliveryCreate (w : World) (data : NewPosDelivery) : World :=
  { w with
    posDeliveries := w.posDeliveries.create
      { venueId := data.venueId, orderId := data.orderId, adapter := data.adapter,
        status := .pending, attempts := 0, lastError := none, claimedAt := none,
        claimId := none, payload := data.payload, createdAt := w.now } }

def posDeliveryUpdate (w : World) (id : Id) (data : PosDelivery → PosDelivery) :
    World × Except DbError Unit :=
  match w.posDeliveries.get? id with
  | none => (w, .error .p2025)
  | some _ => ({ w with posDeliveries := w.posDeliveries.updateAt id data }, .ok ())

/-- Insert a row of the abuse ledger. -/
def orderAttemptCreate (w : World) (row : NewOrderAttempt) : World :=
  { w with
    orderAttempts := w.orderAttempts.create
      { venueId := row.venueId, tableId := row.tableId, sessionId := row.sessionId,
        orderId := row.orderId, ip := row.ip, userAgent := row.userAgent,
        outcome := row.outcome, detail := row.detail, createdAt := w.now } }

/-! ## Tables, venues and staff -/

/-- Insert a table; two tables do not share a code, and the venue is there. -/
def tableCreate (w : World) (data : NewTable) : World × Except DbError Id :=
  if (w.tables.find? (fun _ t => t.code == data.code)).isSome then (w, .error (.p2002 [.code]))
  else if (w.venues.get? data.venueId).isNone then (w, .error .p2003)
  else ({ w with
    tables := w.tables.create
      { venueId := data.venueId, code := data.code, name := data.name, qrVersion := 1,
        active := true } }, .ok w.tables.next)

def tableUpdate (w : World) (id : Id) (data : Table → Table) : World × Except DbError Unit :=
  match w.tables.get? id with
  | none => (w, .error .p2025)
  | some _ => ({ w with tables := w.tables.updateAt id data }, .ok ())

/-- What a reset of its code writes into a table. -/
def bumpQr (t : Table) : Table := { t with qrVersion := t.qrVersion + 1 }

/-- The writes of `regenerateQr`: the table's code, and the sessions named. -/
def regenerateTransaction (w : World) (tableId : Id) (sessionIds : List Id) :
    World × Except DbError Unit :=
  match w.tables.get? tableId with
  | none => (w, .error .p2025)
  | some _ => ({ w with
      tables := w.tables.updateAt tableId bumpQr
      tableSessions := w.tableSessions.update (fun id _ => sessionIds.contains id)
        (revoke w.now) }, .ok ())

/-- The writes of `rotateQrSecret`: the venue's secret, the code of each of its
tables, and the sessions named. It answers how many tables there were. -/
def rotateTransaction (w : World) (venueId : Id) (secret : Text) (sessionIds : List Id) :
    World × Except DbError ℕ :=
  match w.venues.get? venueId with
  | none => (w, .error .p2025)
  | some _ => ({ w with
      venues := w.venues.updateAt venueId (fun v => { v with qrSecret := secret })
      tables := w.tables.update (fun _ t => t.venueId == venueId) bumpQr
      tableSessions := w.tableSessions.update (fun id _ => sessionIds.contains id)
        (revoke w.now) }, .ok (w.tables.count (fun _ t => t.venueId == venueId)))

/-- Insert an account; two accounts do not share an address. -/
def staffUserCreate (w : World) (data : NewStaffUser) : World × Except DbError Id :=
  if (w.staffUsers.find? (fun _ u => u.email == data.email)).isSome then
    (w, .error (.p2002 [.email]))
  else ({ w with
    staffUsers := w.staffUsers.create
      { venueId := data.venueId, email := data.email, name := data.name,
        passwordHash := data.passwordHash, role := data.role, active := true,
        tokenVersion := 0 } }, .ok w.staffUsers.next)

def staffUserUpdate (w : World) (id : Id) (data : StaffUser → StaffUser) :
    World × Except DbError Unit :=
  match w.staffUsers.get? id with
  | none => (w, .error .p2025)
  | some _ => ({ w with staffUsers := w.staffUsers.updateAt id data }, .ok ())

end World

/-- **What each call does**, when it does not fail. -/
def World.exec (c : Choice) : (op : Call) → World → World × Except DbError (Call.Res op)
  | .query q, w => (w, .ok (q w))
  | .orderUpdate id data, w => w.orderUpdate id data
  | .orderUpdateMany cond data, w =>
    ({ w with orders := w.orders.update cond data }, .ok (w.orders.count cond))
  | .orderCreate data items, w => w.orderCreate c data items
  | .orderEditTransaction orderId statuses edits totalKurus entry, w =>
    let r := w.orderEditTransaction orderId statuses edits totalKurus entry
    (r.1, .ok r.2)
  | .tableVisitCreate tableId venueId, w =>
    (w.tableVisitCreate tableId venueId, .ok w.tableVisits.next)
  | .tableVisitDelete id, w => w.tableVisitDelete id
  | .tableVisitUpdate id data, w => w.tableVisitUpdate id data
  | .settleTransaction visitId data orderIds provider sessionIds, w =>
    let r := w.settleTransaction visitId data orderIds provider sessionIds
    (r.1, .ok r.2)
  | .tableSessionCreate data, w => w.tableSessionCreate data
  | .tableSessionUpdate id data, w => w.tableSessionUpdate id data
  | .tableSessionUpdateMany cond data, w =>
    ({ w with tableSessions := w.tableSessions.update cond (data w.now) },
      .ok (w.tableSessions.count cond))
  | .posDeliveryCreate data, w =>
    (w.posDeliveryCreate data, .ok w.posDeliveries.next)
  | .posDeliveryUpdate id data, w => w.posDeliveryUpdate id data
  | .posDeliveryUpdateMany cond data, w =>
    ({ w with posDeliveries := w.posDeliveries.update (cond w.now) data },
      .ok (w.posDeliveries.count (cond w.now)))
  | .orderAttemptCreate row, w => (w.orderAttemptCreate row, .ok ())
  | .tableCreate data, w => w.tableCreate data
  | .tableUpdate id data, w => w.tableUpdate id data
  | .regenerateTransaction tableId sessionIds, w => w.regenerateTransaction tableId sessionIds
  | .rotateTransaction venueId secret sessionIds, w =>
    w.rotateTransaction venueId secret sessionIds
  | .staffUserCreate data, w => w.staffUserCreate data
  | .staffUserUpdate id data, w => w.staffUserUpdate id data
  | .accountCacheSet id state, w =>
    ({ w with accountCache := fun k => if k = id then some (state w.now) else w.accountCache k },
      .ok ())
  | .accountCacheDelete id, w =>
    ({ w with accountCache := fun k => if k = id then none else w.accountCache k }, .ok ())
  | .limiter f, w => ({ w with windows := (f w.now w.windows).1 }, .ok (f w.now w.windows).2)
  | .publish event, w => ({ w with published := w.published ++ [event] }, .ok ())
  | .background _, w => (w, .ok ())

/-- A read. -/
def query {β : Type} (q : World → β) : Api β := Prog.perform (S := api) (.query q)

/-- One call whose error is thrown. -/
def perform (op : Call) : Api (Call.Res op) := Prog.perform (S := api) op

/-- `throw`. -/
def throw' {α : Type} (e : DbError) : Api α := Prog.raise (S := api) e

end Masadan
