import Masadan.TableSession

/-!
# Placing and withdrawing an order

`src/app/api/orders/route.ts` and `src/app/api/orders/[id]/cancel/route.ts`:
the customer's side of an order.
-/

namespace Masadan

/-! ## The body of an order -/

/-- A line as it arrives. -/
structure RawLine where
  itemId : Id
  qty : ℤ
  note : Option Text
  optionIds : Option (List Id)
  deriving DecidableEq

/-- The body of `POST /api/orders`, as far as its types go. -/
structure RawOrder where
  items : List RawLine
  idempotencyKey : Option Text

/-- A line after `orderSchema`. -/
structure OrderLine where
  itemId : Id
  qty : ℕ
  note : Text
  optionIds : List Id

structure OrderBody where
  items : List OrderLine
  idempotencyKey : Option Text

/-- One line of `orderSchema`: `qty` 1 to 20, a note of at most 200, at most 20
options. -/
def RawLine.parse (zod : Zod) (l : RawLine) : Option OrderLine :=
  let note := l.note.getD []
  let optionIds := l.optionIds.getD []
  if 1 ≤ l.qty ∧ l.qty ≤ 20 ∧ zod.length note ≤ 200 ∧ optionIds.length ≤ 20 then
    some ⟨l.itemId, l.qty.toNat, note, optionIds⟩
  else none

/-- `orderSchema`: 1 to 30 lines, a key of 8 to 64 when there is one. -/
def orderSchema (zod : Zod) (body : RawOrder) : Option OrderBody :=
  if 1 ≤ body.items.length ∧ body.items.length ≤ 30
      ∧ body.idempotencyKey.all (fun k => decide (8 ≤ zod.length k ∧ zod.length k ≤ 64)) then
    (body.items.mapM (RawLine.parse zod)).map (fun items => ⟨items, body.idempotencyKey⟩)
  else none

/-! ## Pricing -/

def MAX_ORDERS_PER_SESSION_WINDOW : ℕ := 5

/-- `SESSION_WINDOW_MS`: ten minutes. -/
def SESSION_WINDOW_MS : ℤ := 10 * 60 * 1000

def MAX_OPEN_ORDERS_PER_TABLE : ℕ := 10

/-- Why the pricing loop stopped. -/
inductive PriceRefusal where
  | item_unavailable (itemId : Id)
  | unknown_option
  | invalid_modifiers (groupId : Id)
  deriving DecidableEq, Repr

/-- `allOptions`: the options of an item by id, each with its group. A later
entry of a `Map` replaces an earlier one. -/
def MenuItem.option? (item : MenuItem) (id : Id) : Option (ModifierOption × Id) :=
  ((item.modifierGroups.flatMap (fun g => g.options.map (fun o => (o, g.id)))).reverse).find?
    (fun o => o.1.id == id)

/-- The first group whose number of chosen options is out of its bounds. -/
def MenuItem.badGroup (item : MenuItem) (chosen : List (ModifierOption × Id)) :
    Option ModifierGroup :=
  item.modifierGroups.find? (fun g =>
    let count : ℤ := (chosen.filter (fun o => o.2 == g.id)).length
    decide (count < g.minSelect) || decide (count > g.maxSelect))

/-- One round of the pricing loop. -/
def priceLine (byId : Id → Option MenuItem) (line : OrderLine) :
    Except PriceRefusal NewOrderItem :=
  match (byId line.itemId).filter (fun item => item.available) with
  | none => .error (.item_unavailable line.itemId)
  | some item =>
    let chosen := line.optionIds.filterMap item.option?
    if chosen.length ≠ line.optionIds.length then .error .unknown_option
    else
      match item.badGroup chosen with
      | some g => .error (.invalid_modifiers g.id)
      | none => .ok {
          itemId := line.itemId
          nameSnapshot := item.nameTr
          unitPriceKurus := item.priceKurus
            + (chosen.map (fun o => o.1.priceDeltaKurus)).sum
          qty := line.qty
          note := line.note
          modifiers := chosen.map (fun o => (o.1.nameTr, o.1.priceDeltaKurus)) }

/-- **The pricing loop**, from the total and the lines it has so far. -/
def priceLines (byId : Id → Option MenuItem) :
    List OrderLine → ℤ → List NewOrderItem → Except PriceRefusal (ℤ × List NewOrderItem)
  | [], totalKurus, orderItems => .ok (totalKurus, orderItems)
  | line :: rest, totalKurus, orderItems =>
    match priceLine byId line with
    | .error e => .error e
    | .ok item =>
      priceLines byId rest (totalKurus + item.unitPriceKurus * item.qty) (orderItems ++ [item])

/-! ## Ticket numbers -/

def NUMBER_RETRIES : ℕ := 5

/-- `conflictFields`: the columns of the unique index an error is about. -/
def conflictFields : DbError → Option (List Column)
  | .p2002 target => some target
  | _ => none

def isIdempotencyConflict (err : DbError) : Bool :=
  ((conflictFields err).map (fun fields => fields.contains .idempotencyKey)).getD false

def isTicketNumberConflict (err : DbError) : Bool :=
  match conflictFields err with
  | none => false
  | some fields =>
    if fields.contains .idempotencyKey then false
    else fields.contains .number || fields.contains .venueId

/-- What `createOrderWithNextNumber` is given: everything but the number. -/
structure OrderDraft where
  venueId : Id
  tableId : Id
  sessionId : Id
  visitId : Option Id
  totalKurus : ℤ
  idempotencyKey : Option Text
  items : List NewOrderItem

/-- The row of a draft under a number. -/
def OrderDraft.row (d : OrderDraft) (number : ℕ) : NewOrder :=
  ⟨d.venueId, d.tableId, d.sessionId, d.visitId, number, d.totalKurus, d.idempotencyKey⟩

/-- `max(number)` over the venue's orders, `0` when there is none. -/
def World.lastNumber (w : World) (venueId : Id) : ℕ :=
  ((w.orders.filter (fun _ o => o.venueId == venueId)).map (fun o => o.2.number)).foldl max 0

/-- The order of a session under a key. -/
def World.orderByKey (w : World) (sessionId : Id) (key : Text) : Option (Id × ℕ) :=
  (w.orders.find? (fun _ o => o.sessionId == sessionId && o.idempotencyKey == some key)).map
    (fun o => (o.1, o.2.number))

/-- The transaction of one attempt: read the last number, insert under the
next. -/
def createOnce (draft : OrderDraft) : Api (Id × ℕ) := do
  let last ← query (fun w => w.lastNumber draft.venueId)
  perform (.orderCreate (draft.row (last + 1)) draft.items)

/-- `findFirstOrThrow` by the draft's key. -/
def readBack (sessionId : Id) (key : Text) : Api (Option (Id × ℕ)) := do
  let found ← query (fun w => w.orderByKey sessionId key)
  match found with
  | none => throw' .p2025
  | some order => return some order

/-- The retry loop with so many attempts left. -/
def createAttempts (draft : OrderDraft) : ℕ → Api (Option (Id × ℕ))
  | 0 => return none
  | n + 1 => do
    let result ← (createOnce draft).attempt
    match result with
    | .ok order => return some order
    | .error err =>
      match isIdempotencyConflict err, draft.idempotencyKey with
      | true, some key => readBack draft.sessionId key
      | _, _ =>
        if isTicketNumberConflict err then
          if n = 0 then return none else createAttempts draft n
        else throw' err

/-- **Insert an order under the next ticket number of its venue.** -/
def createOrderWithNextNumber (draft : OrderDraft) : Api (Option (Id × ℕ)) :=
  createAttempts draft NUMBER_RETRIES

/-! ## `POST /api/orders` -/

/-- A request to place an order. `body` is `none` when it is not JSON of the
schema's shape; `zod` is the schema library as it meets this body; `budget` is
the answer of the in-memory write budget for callers without a session. -/
structure OrderRequest where
  cookie : Option ℕ
  caller : Caller
  body : Option RawOrder
  zod : Zod
  budget : Bool

inductive OrderAnswer where
  | ok (orderId : Id) (number : ℕ) (replayed : Bool)
  | no_session
  | invalid_order
  | rate_limited
  | item_unavailable (itemId : Id)
  | invalid_modifiers (groupId : Id)
  | order_failed
  deriving DecidableEq, Repr

/-- The HTTP status of an answer. -/
def OrderAnswer.status : OrderAnswer → ℕ
  | .ok _ _ _ => 200
  | .no_session => 401
  | .invalid_order => 400
  | .rate_limited => 429
  | .item_unavailable _ => 409
  | .invalid_modifiers _ => 400
  | .order_failed => 503

/-- What the loop's refusal writes into the ledger and answers. -/
def refuse (caller : Caller) (base : AttemptInfo) : PriceRefusal → Api OrderAnswer
  | .item_unavailable itemId => do
    logAttempt caller .validation_error
      { base with detail := text s!"unavailable item {itemId}" }
    return .item_unavailable itemId
  | .unknown_option => do
    logAttempt caller .validation_error { base with detail := text "unknown modifier option" }
    return .invalid_order
  | .invalid_modifiers groupId => return .invalid_modifiers groupId

/-- The order already placed under the key, if the request carries one. -/
def replayed (sessionId : Id) : Option Text → Api (Option (Id × ℕ))
  | none => return none
  | some key => query (fun w => w.orderByKey sessionId key)

/-- How many orders the session placed inside the window. -/
def World.recentOrders (w : World) (sessionId : Id) : ℕ :=
  w.orders.count (fun _ o => o.sessionId == sessionId
    && decide (o.createdAt > w.now - SESSION_WINDOW_MS))

/-- How many of the table's orders are in flight. -/
def World.openOrders (w : World) (tableId : Id) : ℕ :=
  w.orders.count (fun _ o => o.tableId == tableId && IN_FLIGHT_STATUSES.contains o.status)

/-- The venue's dishes among those asked for. -/
def World.menuFor (w : World) (venueId : Id) (itemIds : List Id) (id : Id) : Option MenuItem :=
  if itemIds.contains id then (w.menuItems.get? id).filter (fun m => m.venueId == venueId)
  else none

/-- What happens once an order is priced: insert it, log it, announce it. -/
def submit (caller : Caller) (session : ActiveSession) (body : OrderBody) (totalKurus : ℤ)
    (items : List NewOrderItem) : Api OrderAnswer := do
  let order ← createOrderWithNextNumber
    ⟨session.venueId, session.tableId, session.id, session.visitId, totalKurus,
      body.idempotencyKey, items⟩
  match order with
  | none =>
    logAttempt caller .number_conflict
      { session.base with detail := text "exhausted ticket-number retries" }
    return .order_failed
  | some (id, number) =>
    logAttempt caller .ok { session.base with orderId := some id }
    let _ ← perform (.publish (.order_created session.venueId id session.id session.tableId))
    return .ok id number false

/-- The limits, the pricing and the insertion, for an order that is not a
replay. -/
def place (caller : Caller) (session : ActiveSession) (body : OrderBody) : Api OrderAnswer := do
  let recent ← query (fun w => w.recentOrders session.id)
  let inFlight ← query (fun w => w.openOrders session.tableId)
  if recent ≥ MAX_ORDERS_PER_SESSION_WINDOW ∨ inFlight ≥ MAX_OPEN_ORDERS_PER_TABLE then
    logAttempt caller .rate_limited
      { session.base with detail := text s!"recent={recent} open={inFlight}" }
    return .rate_limited
  else
    let byId ← query (fun w => w.menuFor session.venueId (body.items.map (fun i => i.itemId)))
    match priceLines byId body.items 0 [] with
    | .error refusal => refuse caller session.base refusal
    | .ok (totalKurus, items) => submit caller session body totalKurus items

/-- The route from a valid session on: the body, the replay check, the order. -/
def answerOrder (req : OrderRequest) (session : ActiveSession) : Api OrderAnswer := do
  match req.body.bind (orderSchema req.zod) with
  | none =>
    logAttempt req.caller .validation_error
      { session.base with detail := req.zod.message.slice 300 }
    return .invalid_order
  | some body =>
    let existing ← replayed session.id body.idempotencyKey
    match existing with
    | some (id, number) => return .ok id number true
    | none => place req.caller session body

/-- **`POST /api/orders`.** -/
def postOrder (req : OrderRequest) : Api OrderAnswer := do
  let session ← getActiveSession req.cookie none
  match session with
  | none =>
    if req.budget then
      logAttempt req.caller .expired_session {}
      return .no_session
    else return .no_session
  | some session => answerOrder req session

/-! ## `POST /api/orders/[id]/cancel` -/

inductive CancelAnswer where
  | ok
  | no_session
  | not_found
  | already_accepted (status : Option OrderStatus)
  deriving DecidableEq, Repr

/-- The HTTP status of an answer. -/
def CancelAnswer.status : CancelAnswer → ℕ
  | .ok => 200
  | .no_session => 401
  | .not_found => 404
  | .already_accepted _ => 409

/-- The `where` of the withdrawal: the order, while nobody has taken it. -/
def withdrawable (id k : Id) (o : Order) : Bool := k == id && o.status == CUSTOMER_CANCELLABLE

/-- The `data` of the withdrawal. -/
def withdrawn (o : Order) : Order := { o with status := .cancelled }

/-- **A customer withdrawing their own order.** The update is conditional on the
order still being `received`. -/
def cancelOrder (cookie : Option ℕ) (caller : Caller) (id : Id) : Api CancelAnswer := do
  let session ← getActiveSession cookie none
  match session with
  | none => return .no_session
  | some session =>
    let found ← query (fun w =>
      (w.orders.get? id).filter (fun o => o.sessionId == session.id))
    match found with
    | none => return .not_found
    | some order =>
      if order.status ≠ CUSTOMER_CANCELLABLE then return .already_accepted (some order.status)
      else
        let count : ℕ ← perform (.orderUpdateMany (withdrawable id) withdrawn)
        if count = 0 then return .already_accepted none
        else
          logAttempt caller .customer_cancelled { session.base with orderId := some id }
          let _ ← perform
            (.publish (.order_updated session.venueId id session.id session.tableId))
          return .ok

end Masadan
