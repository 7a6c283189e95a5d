import Masadan.DeskOrders

/-!
# The kitchen's outbox

`src/lib/pos/outbox.ts` and `src/lib/pos/adapters.ts`: an accepted order's
ticket is written to the outbox by a job nobody waits for, pushed at once when
the adapter can be pushed to, and reconciled by a periodic sweep.
-/

namespace Masadan

def MAX_ATTEMPTS : ℕ := 5

/-- `CLAIM_TIMEOUT_MS`: a minute. -/
def CLAIM_TIMEOUT_MS : ℤ := 60000

/-! ## Adapters -/

/-- What pushing a delivery came to. -/
structure DeliverResult where
  done : Bool
  error : Option Text

/-- `renderPayload`. -/
def AdapterName.renderPayload : AdapterName → Ticket → Payload
  | .console, t => .text t
  | .escpos_bridge, t => .escPos t

/-- `deliver`: the console prints at once, the bridge is pulled from. -/
def AdapterName.deliver : AdapterName → Payload → Ticket → DeliverResult
  | .console, _, _ => ⟨true, none⟩
  | .escpos_bridge, _, _ => ⟨false, none⟩

/-- `getAdapter`: an unknown name is the console. -/
def getAdapter (name : Option AdapterName) : AdapterName := name.getD .console

/-! ## Tickets -/

/-- An order with its lines, its table and its venue. -/
structure OrderForTicket where
  order : Order
  items : List OrderItem
  table : Table
  venue : Venue

def OrderItem.ticketLine (i : OrderItem) : TicketLine where
  qty := i.qty
  name := i.nameSnapshot
  modifiers := i.modifiers.map Prod.fst
  note := i.note
  unitPriceKurus := i.unitPriceKurus

def ticketFor (o : OrderForTicket) : Ticket where
  venueName := o.venue.name
  currency := o.venue.currency
  tableName := o.table.name
  orderNumber := o.order.number
  createdAt := o.order.createdAt
  totalKurus := o.order.totalKurus
  lines := o.items.map OrderItem.ticketLine
  amendment := none

/-- An order with the lines a condition selects, its table and its venue. -/
def World.orderForTicket (w : World) (orderId : Id) (items : List (Id × OrderItem)) :
    Option OrderForTicket :=
  match w.orders.get? orderId with
  | none => none
  | some o =>
    match w.tables.get? o.tableId, w.venues.get? o.venueId with
    | some t, some v => some ⟨o, items.map Prod.snd, t, v⟩
    | _, _ => none

/-- The order as `enqueuePosDelivery` reads it: with its live lines. -/
def World.orderToEnqueue (w : World) (orderId : Id) : Option OrderForTicket :=
  w.orderForTicket orderId (w.liveItems orderId)

/-! ## Delivery -/

/-- What a failed attempt writes into the row. -/
def deliveryFailed (attempts : ℕ) (error : Text) (d : PosDelivery) : PosDelivery :=
  { d with
    attempts := attempts
    lastError := some (error.slice 500)
    status := if attempts ≥ MAX_ATTEMPTS then .failed else .pending }

/-- What an error reads as: its code, the library's own wording being left
out. -/
def DbError.text : DbError → Text
  | .p2002 _ => Masadan.text "P2002"
  | .p2003 => Masadan.text "P2003"
  | .p2025 => Masadan.text "P2025"
  | .failed => Masadan.text "failed"

/-- The `try` block of `attemptDelivery`: push, and record a push that is done.
It returns the message of the error it throws. -/
def push (deliveryId : Id) (delivery : PosDelivery) (ticket : Ticket) : Api (Option Text) := do
  let result := (getAdapter (some delivery.adapter)).deliver delivery.payload ticket
  if result.done then
    let updated ← (perform (.posDeliveryUpdate deliveryId
      (fun d => { d with status := .sent, attempts := d.attempts + 1 }))).attempt
    match updated with
    | .ok _ => return none
    | .error e => return some e.text
  else return result.error.map (fun e => text "Error: " ++ e)

/-- Push a delivery that is still pending; a failure is counted and left to the
sweep. -/
def attemptDelivery (deliveryId : Id) (ticket : Ticket) : Api Unit := do
  let found ← query (fun w => w.posDeliveries.get? deliveryId)
  match found with
  | none => return ()
  | some delivery =>
    if delivery.status ≠ .pending then return ()
    else
      let err ← push deliveryId delivery ticket
      match err with
      | none => return ()
      | some e =>
        let _ ← perform (.posDeliveryUpdate deliveryId (deliveryFailed (delivery.attempts + 1) e))
        return ()

/-- The body of `enqueuePosDelivery`: read the order, write the outbox row,
push. -/
def enqueueBody (orderId : Id) (amendment : Option Amendment) : Api Unit := do
  let found ← query (fun w => w.orderToEnqueue orderId)
  match found with
  | none => throw' .p2025
  | some o =>
    let ticket := { ticketFor o with amendment := amendment }
    let adapter := getAdapter o.venue.posAdapter
    let delivery : Id ← perform (.posDeliveryCreate
      ⟨o.order.venueId, orderId, adapter, adapter.renderPayload ticket⟩)
    attemptDelivery delivery ticket

/-- **Write an order's ticket to the outbox.** Failures never propagate. -/
def enqueuePosDelivery (orderId : Id) (amendment : Option Amendment) : Api Unit := do
  let _ ← (enqueueBody orderId amendment).attempt
  return ()

/-! ## The sweep -/

structure SweepResult where
  reclaimed : ℕ
  retried : ℕ
  exhausted : ℕ
  deriving DecidableEq, Repr

def claimExpired : Text := text "claim expired — agent did not ack"

/-- The pending push deliveries with attempts left, oldest first, at most
fifty, each with the ticket of its order as it reads now. -/
def World.retryable (w : World) : List (Id × Ticket) :=
  ((orderBy (fun d => d.2.createdAt) (w.posDeliveries.filter (fun _ d =>
    d.status == .pending && d.adapter != .escpos_bridge && decide (d.attempts < MAX_ATTEMPTS)))).take
      50).filterMap (fun d =>
        (w.orderForTicket d.2.orderId
          (w.orderItems.filter (fun _ i => i.orderId == d.2.orderId))).map
            (fun o => (d.1, ticketFor o)))

/-- The loop over the deliveries to retry. -/
def retryEach : List (Id × Ticket) → Api Unit
  | [] => return ()
  | row :: rest => do
    attemptDelivery row.1 row.2
    retryEach rest

/-- **Periodic reconciliation of the outbox.** -/
def sweepPosDeliveries : Api SweepResult := do
  let staleBefore : Time ← query (fun w => w.now - CLAIM_TIMEOUT_MS)
  let reclaimed : ℕ ← perform (.posDeliveryUpdateMany
    (fun _ _ d => d.status == .claimed && d.claimedAt.any (fun t => decide (t < staleBefore)))
    (fun d => { d with
      status := .pending, claimId := none, claimedAt := none, lastError := some claimExpired }))
  let reclaimedNullish : ℕ ← perform (.posDeliveryUpdateMany
    (fun _ _ d => d.status == .claimed && d.claimedAt.isNone)
    (fun d => { d with status := .pending, claimId := none, lastError := some claimExpired }))
  let exhausted : ℕ ← perform (.posDeliveryUpdateMany
    (fun _ _ d => d.status == .pending && decide (d.attempts ≥ MAX_ATTEMPTS))
    (fun d => { d with status := .failed }))
  let retryable ← query (fun w => w.retryable)
  retryEach retryable
  return ⟨reclaimed + reclaimedNullish, retryable.length, exhausted⟩

end Masadan
