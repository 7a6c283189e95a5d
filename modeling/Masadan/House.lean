import Masadan.Changes
import Masadan.LineViews
import Masadan.Routes
import Masadan.ScanFloods

/-!
# The whole server

Every other law is about a part of the server: the requests it concerns, and nothing else
about. Here is all of it that writes to the database. The requests are the routes of the
customers, of the desk and the panel and of the bridge agents, each from the cookie, token
or key it is sent with to its answer, and the jobs and sweeps that run by themselves. Any
call may fail and the process may crash. Between two calls the rest of the application may
do what it does: a manager drops a table or changes the venue, issues or withdraws the key
of an agent, edits the menu, and old rows are pruned.

Since rows can go away here, the database's foreign keys matter: a row is refused whose
table, session, order or venue is not there (`World.dangling`).

What is wanted of the whole is said in three definitions. `Coherent` is what the rows say of
each other. `Kept` is what no step ever rewrites. `Touches` says which rows a step changed,
and `HouseRequest.mayTouch` which a request may change.
-/

namespace Masadan

/-! ## The requests -/

/-- What a member of staff asks. -/
inductive StaffRoute where
  | deskOrders (all : Option Text)
  | patchOrder (id : Id) (body : PatchBody)
  | patchItems (id : Id) (lines : Option (List (Id × ℤ)))
  | deskBills
  | deskBill (id : Id)
  | dismissBill (id : Id)
  | settleBill (id : Id) (body : Option RawSettle)
  | exportOrders (days : Option Text)
  | orderLog (days limit : Option Text) (cursor : Option Id)
  | stats (offset : Time)
  | createTable (name : Option Text) (code : Text)
  | patchTable (id : Id) (body : TablePatch)
  | rotateSecret (confirmed : Bool) (secret : Text)
  | endSession (id : Id)
  | retryDelivery (id : Id)
  | createStaff (body : Option StaffCreate) (salt : ℕ)
  | updateStaff (id : Id) (body : Option StaffUpdate) (salt : ℕ)

/-- The role a route requires. -/
def StaffRoute.role : StaffRoute → Role
  | .deskOrders _ | .patchOrder _ _ | .patchItems _ _ | .deskBills | .deskBill _
  | .dismissBill _ | .settleBill _ _ => .desk
  | _ => .admin

/-- **The requests.** What a handler draws at random comes with the request. -/
inductive HouseRequest where
  | scan (req : ScanRequest)
  | order (req : OrderRequest)
  | orders (cookie : Option ℕ)
  | cancel (cookie : Option ℕ) (caller : Caller) (id : Id)
  | bill (cookie : Option ℕ)
  | askBill (cookie : Option ℕ) (caller : Caller)
  | staff (token : Option TokenClaims) (route : StaffRoute)
  | password (token : Option TokenClaims) (ip : Text) (body : Option PasswordChange) (salt : ℕ)
  | poll (key : Option Text) (claimId : ℕ)
  | ack (key : Option Text) (body : AckBody)
  | enqueue (job : Job)
  | sweepDeliveries
  | closeAbandoned

inductive HouseAnswer where
  | scan (a : ScanAnswer)
  | order (a : OrderAnswer)
  | orders (a : CustomerAnswer)
  | cancel (a : CancelAnswer)
  | bill (a : CustomerBillAnswer)
  | askBill (a : BillAnswer)
  | deskOrders (a : DeskAnswer)
  | patchOrder (a : PatchAnswer)
  | patchItems (a : ItemsAnswer)
  | deskBills (a : DeskBillsAnswer)
  | deskBill (a : DeskBillAnswer)
  | dismissBill (a : DismissAnswer)
  | settleBill (a : SettleBillAnswer)
  | exportOrders (a : ExportAnswer)
  | orderLog (a : LogAnswer)
  | stats (a : StatsAnswer)
  | createTable (a : NewTableAnswer)
  | patchTable (a : TableAnswer)
  | rotateSecret (a : RotateAnswer)
  | endSession (a : RevokeAnswer)
  | retryDelivery (a : RetryAnswer)
  | staff (a : StaffRouteAnswer)
  | password (a : PasswordAnswer)
  | poll (a : PendingAnswer)
  | ack (a : AckAnswer)
  | done

/-- What a staff route does for whoever is asking. -/
def StaffRoute.prog (bcrypt : Bcrypt) (staff : Option StaffClaims) : StaffRoute → Api HouseAnswer
  | .deskOrders all => HouseAnswer.deskOrders <$> getDeskOrders staff all
  | .patchOrder id body => HouseAnswer.patchOrder <$> Masadan.patchOrder staff id body
  | .patchItems id lines => HouseAnswer.patchItems <$> Masadan.patchItems staff id lines
  | .deskBills => HouseAnswer.deskBills <$> getDeskBills staff
  | .deskBill id => HouseAnswer.deskBill <$> getDeskBill staff id
  | .dismissBill id => HouseAnswer.dismissBill <$> Masadan.dismissBill staff id
  | .settleBill id body => HouseAnswer.settleBill <$> Masadan.settleBill staff id body
  | .exportOrders days => HouseAnswer.exportOrders <$> getExport staff days
  -- ids are numbers here, and compare as such
  | .orderLog days limit cursor =>
    HouseAnswer.orderLog <$> getOrders (fun id : Id => id) staff days limit cursor
  | .stats offset => HouseAnswer.stats <$> getStats staff offset
  | .createTable name code => HouseAnswer.createTable <$> Masadan.createTable staff name code
  | .patchTable id body => HouseAnswer.patchTable <$> Masadan.patchTable staff id body
  | .rotateSecret confirmed secret =>
    HouseAnswer.rotateSecret <$> postQrSecret staff confirmed secret
  | .endSession id => HouseAnswer.endSession <$> deleteSession staff id
  | .retryDelivery id => HouseAnswer.retryDelivery <$> Masadan.retryDelivery staff id
  | .createStaff body salt => HouseAnswer.staff <$> postStaff bcrypt staff body salt
  | .updateStaff id body salt => HouseAnswer.staff <$> patchStaff bcrypt staff id body salt

def HouseRequest.prog (hmac : Hmac) (bcrypt : Bcrypt) : HouseRequest → Api HouseAnswer
  | .scan req => HouseAnswer.scan <$> req.prog hmac
  | .order req => HouseAnswer.order <$> postOrder req
  | .orders cookie => HouseAnswer.orders <$> getCustomerOrders cookie
  | .cancel cookie caller id => HouseAnswer.cancel <$> cancelOrder cookie caller id
  | .bill cookie => HouseAnswer.bill <$> getBill cookie
  | .askBill cookie caller => HouseAnswer.askBill <$> postBill cookie caller
  | .staff token route => do
    let staff ← requireStaff route.role token
    route.prog bcrypt (staff.map (fun s => s.toStaffClaims))
  | .password token ip body salt =>
    HouseAnswer.password <$> postPassword bcrypt token ip body salt
  | .poll key claimId => HouseAnswer.poll <$> getPending key claimId
  | .ack key body => HouseAnswer.ack <$> postAck key body
  | .enqueue job => (fun _ => HouseAnswer.done) <$> enqueuePosDelivery job.orderId job.amendment
  | .sweepDeliveries => (fun _ => HouseAnswer.done) <$> sweepPosDeliveries
  | .closeAbandoned => (fun _ => HouseAnswer.done) <$> closeAbandonedVisits

/-- A job is started by a handler only. -/
def HouseRequest.external : HouseRequest → Bool
  | .enqueue _ => false
  | _ => true

/-! ## The rest of the application -/

/-- What happens without a request. -/
inductive HouseMove where
  | tick (ms : ℕ)
  | crash
  | prune
  /-- `DELETE /api/admin/tables/[id]`, where its transaction commits. -/
  | dropTable (id : Id)
  /-- `updateVenueSettings`. -/
  | settings (venueId : Id) (name currency : Option Text) (posAdapter : Option AdapterName)
  /-- `createBridgeKey`. -/
  | issueKey (venueId : Id) (keyHash : Text)
  /-- `deleteBridgeKey`. -/
  | withdrawKey (venueId id : Id)
  /-- The menu is edited, in whatever way. -/
  | menu (items : Rows MenuItem)

/-- A table that orders refer to is not dropped, and neither is one with a session that
orders refer to. -/
def World.tableHeld (w : World) (id : Id) : Bool :=
  (w.orders.find? (fun _ o => o.tableId == id
    || (w.tableSessions.get? o.sessionId).any (fun s => s.tableId == id))).isSome

/-- A session, or an order, that referred to one of the table's visits refers to none. -/
def World.leaves (w : World) (id : Id) (visitId : Option Id) : Option Id :=
  visitId.filter (fun v => !(w.tableVisits.get? v).any (fun v => v.tableId == id))

/-- The transaction of the table's `DELETE`: its sessions, its visits, and the table. A
foreign key that is violated aborts it. -/
def World.dropTable (w : World) (id : Id) : World :=
  if w.tableHeld id then w
  else { w with
    tables := w.tables.erase (fun k _ => k == id)
    tableVisits := w.tableVisits.erase (fun _ v => v.tableId == id)
    tableSessions := (w.tableSessions.erase (fun _ s => s.tableId == id)).update (fun _ _ => true)
      (fun s => { s with visitId := w.leaves id s.visitId })
    orders := w.orders.update (fun _ _ => true)
      (fun o => { o with visitId := w.leaves id o.visitId }) }

/-- What the settings write into a venue. -/
def venueSettings (name currency : Option Text) (posAdapter : Option AdapterName) (v : Venue) :
    Venue :=
  { v with
    name := name.getD v.name
    currency := currency.getD v.currency
    posAdapter := posAdapter <|> v.posAdapter }

/-- Two keys do not share a hash, and the venue is there. -/
def World.issueKey (w : World) (venueId : Id) (keyHash : Text) : World :=
  if (w.bridgeKeys.find? (fun _ k => k.keyHash == keyHash)).isSome then w
  else if (w.venues.get? venueId).isNone then w
  else { w with bridgeKeys := w.bridgeKeys.create ⟨venueId, keyHash⟩ }

/-- Another menu. A line of a dish that is gone refers to none. -/
def World.withMenu (w : World) (items : Rows MenuItem) : World :=
  { w with
    menuItems := items
    orderItems := w.orderItems.update (fun _ _ => true)
      (fun i => { i with itemId := i.itemId.filter (fun d => (items.get? d).isSome) }) }

def HouseMove.apply : HouseMove → World → World
  | .tick ms, w => { w with now := w.now + ms }
  -- the accounts and the windows were in the memory of the process
  | .crash, w => { w with accountCache := fun _ => none, windows := [] }
  | .prune, w => w.pruneRetainedData.1
  | .dropTable id, w => w.dropTable id
  | .settings venueId name currency posAdapter, w =>
    { w with
      venues := w.venues.updateAt venueId (venueSettings name currency posAdapter)
      published := w.published ++ [.menu_changed venueId] }
  | .issueKey venueId keyHash, w => w.issueKey venueId keyHash
  | .withdrawKey venueId id, w =>
    { w with bridgeKeys := w.bridgeKeys.erase (fun k row => k == id && row.venueId == venueId) }
  | .menu items, w => w.withMenu items

/-! ## The server -/

/-- A venue that is not there. -/
def World.noVenue (w : World) (id : Id) : Bool := (w.venues.get? id).isNone

/-- A table that is not there. -/
def World.noTable (w : World) (id : Id) : Bool := (w.tables.get? id).isNone

/-- **A new row whose foreign keys lead nowhere.** -/
def World.dangling (w : World) : Call → Bool
  | .orderCreate data _ => w.noVenue data.venueId || w.noTable data.tableId
    || (w.tableSessions.get? data.sessionId).isNone
  | .tableVisitCreate tableId venueId => w.noVenue venueId || w.noTable tableId
  | .tableSessionCreate data => w.noVenue data.venueId || w.noTable data.tableId
  | .posDeliveryCreate data => w.noVenue data.venueId || (w.orders.get? data.orderId).isNone
  | .orderAttemptCreate row => row.venueId.any w.noVenue
  | .staffUserCreate data => w.noVenue data.venueId
  | _ => false

/-- What a call that would insert such a row is answered: a unique index refuses first. -/
def houseExec (c : Choice) (op : Call) (w : World) : World × Except DbError (Call.Res op) :=
  if c.fault && op.onDatabase then (w, .error .failed)
  else if w.dangling op then
    match (World.exec c op w).2 with
    | .error e => (w, .error e)
    | .ok _ => (w, .error .p2003)
  else World.exec c op w

/-- **The server.** -/
abbrev house (hmac : Hmac) (bcrypt : Bcrypt) : Sys api where
  World := World
  Req := HouseRequest
  Ans := HouseAnswer
  Choice := Choice
  Env := HouseMove
  exec := houseExec
  prog := HouseRequest.prog hmac bcrypt
  external := HouseRequest.external
  spawns
    | .background job => [.enqueue job]
    | _ => []
  env := HouseMove.apply
  kills
    | .crash => true
    | _ => false

/-- A run of the server, from a world. -/
abbrev houseRun (hmac : Hmac) (bcrypt : Bcrypt) (w₀ : World)
    (acts : List (house hmac bcrypt).Action) : (house hmac bcrypt).Pool :=
  Sys.Pool.run (Sys.Pool.init w₀ : (house hmac bcrypt).Pool) acts

/-! ## What the rows say of each other -/

/-- The table is there, and the venue's. -/
def World.TableThere (w : World) (tableId venueId : Id) : Prop :=
  ∃ t, w.tables.get? tableId = some t ∧ t.venueId = venueId

/-- The visit is there, at the table. -/
def World.VisitThere (w : World) (visitId tableId : Id) : Prop :=
  ∃ v, w.tableVisits.get? visitId = some v ∧ v.tableId = tableId

/-- The session is there, at the table, and the venue's. -/
def World.SessionThere (w : World) (sessionId tableId venueId : Id) : Prop :=
  ∃ s, w.tableSessions.get? sessionId = some s ∧ s.tableId = tableId ∧ s.venueId = venueId

/-- The order is there, and the venue's. -/
def World.OrderThere (w : World) (orderId venueId : Id) : Prop :=
  ∃ o, w.orders.get? orderId = some o ∧ o.venueId = venueId

/-- **What an event says of an order is so**: the order is there, and of that venue, session
and table. -/
def BusEvent.TrueOf (w : World) : BusEvent → Prop
  | .order_created venueId orderId sessionId tableId
  | .order_updated venueId orderId sessionId tableId => ∃ o, w.orders.get? orderId = some o
    ∧ o.venueId = venueId ∧ o.sessionId = sessionId ∧ o.tableId = tableId
  | _ => True

/-- **The rows agree.** What a row refers to is there, at the same table and of the same
venue as the row itself; and what was announced of orders is so. -/
structure Coherent (w : World) : Prop where
  tables : ∀ id t, w.tables.get? id = some t → ∃ v, w.venues.get? t.venueId = some v
  visits : ∀ id v, w.tableVisits.get? id = some v → w.TableThere v.tableId v.venueId
  sessions : ∀ id s, w.tableSessions.get? id = some s → w.TableThere s.tableId s.venueId
    ∧ ∀ visitId, s.visitId = some visitId → w.VisitThere visitId s.tableId
  orders : ∀ id o, w.orders.get? id = some o → w.SessionThere o.sessionId o.tableId o.venueId
    ∧ ∀ visitId, o.visitId = some visitId → w.VisitThere visitId o.tableId
  items : ∀ id i, w.orderItems.get? id = some i → ∃ o, w.orders.get? i.orderId = some o
  edits : ∀ id e, w.orderEdits.get? id = some e → ∃ o, w.orders.get? e.orderId = some o
  deliveries : ∀ id d, w.posDeliveries.get? id = some d → w.OrderThere d.orderId d.venueId
  staff : ∀ id u, w.staffUsers.get? id = some u → ∃ v, w.venues.get? u.venueId = some v
  keys : ∀ id k, w.bridgeKeys.get? id = some k → ∃ v, w.venues.get? k.venueId = some v
  news : ∀ e ∈ w.published, e.TrueOf w

/-! ## What is never rewritten -/

/-- A table keeps its venue and its code, and its version only counts up. -/
structure TableKept (t t' : Table) : Prop where
  venueId : t'.venueId = t.venueId
  code : t'.code = t.code
  qrVersion : t.qrVersion ≤ t'.qrVersion

/-- A visit stays where and when it was opened. -/
structure VisitKept (v v' : TableVisit) : Prop where
  venueId : v'.venueId = v.venueId
  tableId : v'.tableId = v.tableId
  openedAt : v'.openedAt = v.openedAt

/-- A session keeps its table, its token and its term; it may lose its visit, and once
revoked it stays revoked. -/
structure SessionKept (s s' : TableSession) : Prop where
  venueId : s'.venueId = s.venueId
  tableId : s'.tableId = s.tableId
  token : s'.token = s.token
  visitId : s'.visitId = s.visitId ∨ s'.visitId = none
  createdAt : s'.createdAt = s.createdAt
  expiresAt : s'.expiresAt = s.expiresAt
  revokedAt : s.revokedAt.isSome → s'.revokedAt.isSome

/-- An order keeps who placed it, where, when and under which number and key; it may lose
its visit. -/
structure OrderKept (o o' : Order) : Prop where
  venueId : o'.venueId = o.venueId
  tableId : o'.tableId = o.tableId
  sessionId : o'.sessionId = o.sessionId
  visitId : o'.visitId = o.visitId ∨ o'.visitId = none
  number : o'.number = o.number
  idempotencyKey : o'.idempotencyKey = o.idempotencyKey
  createdAt : o'.createdAt = o.createdAt

/-- A line keeps what was ordered and what it cost; its quantity only goes down, and a line
once voided keeps the time it was. -/
structure ItemKept (i i' : OrderItem) : Prop where
  orderId : i'.orderId = i.orderId
  itemId : i'.itemId = i.itemId ∨ i'.itemId = none
  nameSnapshot : i'.nameSnapshot = i.nameSnapshot
  unitPriceKurus : i'.unitPriceKurus = i.unitPriceKurus
  note : i'.note = i.note
  modifiers : i'.modifiers = i.modifiers
  qty : i'.qty ≤ i.qty
  voidedAt : i.voidedAt.isSome → i'.voidedAt = i.voidedAt ∧ i'.qty = i.qty

/-- A delivery keeps its order, its printer and its ticket. -/
structure DeliveryKept (d d' : PosDelivery) : Prop where
  venueId : d'.venueId = d.venueId
  orderId : d'.orderId = d.orderId
  adapter : d'.adapter = d.adapter
  payload : d'.payload = d.payload
  createdAt : d'.createdAt = d.createdAt

/-- An account keeps its venue and its address, and its version only counts up. -/
structure StaffKept (u u' : StaffUser) : Prop where
  venueId : u'.venueId = u.venueId
  email : u'.email = u.email
  tokenVersion : u.tokenVersion ≤ u'.tokenVersion

/-- **History is not rewritten.** Rows keep what identifies them, and an id never comes to
stand for another row; no order, line, correction, delivery or account goes away, and a
correction is never changed; what was announced stays announced. -/
structure Kept (w w' : World) : Prop where
  now : w.now ≤ w'.now
  venues : w.venues.Stays w'.venues
  tables : w.tables.Follows TableKept w'.tables
  visits : w.tableVisits.Follows VisitKept w'.tableVisits
  sessions : w.tableSessions.Follows SessionKept w'.tableSessions
  orders : w.orders.Follows OrderKept w'.orders
  ordersStay : w.orders.Stays w'.orders
  items : w.orderItems.Follows ItemKept w'.orderItems
  itemsStay : w.orderItems.Stays w'.orderItems
  edits : w.orderEdits.Follows Eq w'.orderEdits
  editsStay : w.orderEdits.Stays w'.orderEdits
  deliveries : w.posDeliveries.Follows DeliveryKept w'.posDeliveries
  deliveriesStay : w.posDeliveries.Stays w'.posDeliveries
  staff : w.staffUsers.Follows StaffKept w'.staffUsers
  staffStay : w.staffUsers.Stays w'.staffUsers
  published : w.published <+: w'.published

/-! ## What a step touches -/

/-- The kinds of rows, and the news. -/
inductive Kind where
  | venue | table | visit | session | order | item | edit | delivery | staff | news
  deriving DecidableEq, Repr

/-- Where a row belongs: its venue, and what else of the house it is of. -/
structure Addr where
  venue : Id
  table : Option Id := none
  session : Option Id := none
  order : Option Id := none
  account : Option Id := none
  deriving DecidableEq, Repr

def Table.addr (t : Table) (id : Id) : Addr := { venue := t.venueId, table := some id }

def TableVisit.addr (v : TableVisit) : Addr := { venue := v.venueId, table := some v.tableId }

def TableSession.addr (s : TableSession) (id : Id) : Addr :=
  { venue := s.venueId, table := some s.tableId, session := some id }

def Order.addr (o : Order) (id : Id) : Addr :=
  { venue := o.venueId, table := some o.tableId, session := some o.sessionId, order := some id }

def PosDelivery.addr (d : PosDelivery) : Addr := { venue := d.venueId, order := some d.orderId }

def StaffUser.addr (u : StaffUser) (id : Id) : Addr := { venue := u.venueId, account := some id }

/-- Where an event belongs. -/
def BusEvent.addr : BusEvent → Addr
  | .order_created venueId orderId sessionId tableId
  | .order_updated venueId orderId sessionId tableId =>
    { venue := venueId, table := some tableId, session := some sessionId, order := some orderId }
  | .bill_requested venueId _ tableId | .bill_updated venueId _ tableId
  | .visit_closed venueId _ tableId => { venue := venueId, table := some tableId }
  | .session_revoked venueId sessionId => { venue := venueId, session := some sessionId }
  | .menu_changed venueId => { venue := venueId }

/-- **What a step has touched**: a row that is not the same before and after, by its kind
and where it belongs, and what was announced. Lines and corrections belong where their
order does. -/
inductive Touches (w w' : World) : Kind → Addr → Prop where
  | venue {id v} (h : w.venues.Differs w'.venues id v) : Touches w w' .venue { venue := id }
  | table {id t} (h : w.tables.Differs w'.tables id t) : Touches w w' .table (t.addr id)
  | visit {id v} (h : w.tableVisits.Differs w'.tableVisits id v) : Touches w w' .visit v.addr
  | session {id s} (h : w.tableSessions.Differs w'.tableSessions id s) :
    Touches w w' .session (s.addr id)
  | order {id o} (h : w.orders.Differs w'.orders id o) : Touches w w' .order (o.addr id)
  | item {id i o} (h : w.orderItems.Differs w'.orderItems id i)
    (ho : w'.orders.get? i.orderId = some o) : Touches w w' .item (o.addr i.orderId)
  | edit {id e o} (h : w.orderEdits.Differs w'.orderEdits id e)
    (ho : w'.orders.get? e.orderId = some o) : Touches w w' .edit (o.addr e.orderId)
  | delivery {id d} (h : w.posDeliveries.Differs w'.posDeliveries id d) :
    Touches w w' .delivery d.addr
  | staff {id u} (h : w.staffUsers.Differs w'.staffUsers id u) : Touches w w' .staff (u.addr id)
  | news {e} (h : e ∈ w'.published.drop w.published.length) : Touches w w' .news e.addr

/-! ## What a request may touch -/

/-- The request has read a session under its cookie. -/
def SawCookie (past : List (Event api World)) (cookie : Option ℕ) (id : Id) (s : TableSession) :
    Prop :=
  ∃ e ∈ past, e.before.tableSessions.get? id = some s ∧ cookie = some s.token

/-- What a phone may touch: of some kinds what is its own, of others what is its table's. -/
def PhoneMay (past : List (Event api World)) (cookie : Option ℕ) (own shared : List Kind)
    (k : Kind) (a : Addr) : Prop :=
  ∃ id s, SawCookie past cookie id s ∧ a.venue = s.venueId ∧ a.table = some s.tableId
    ∧ ((k ∈ own ∧ a.session = some id) ∨ k ∈ shared)

/-- The kinds a staff route writes. -/
def StaffRoute.writes : StaffRoute → List Kind
  | .deskOrders _ | .deskBills | .deskBill _ | .exportOrders _ | .orderLog _ _ _ | .stats _ => []
  | .patchOrder _ _ => [.order, .news]
  | .patchItems _ _ => [.order, .item, .edit, .news]
  | .dismissBill _ => [.visit, .news]
  | .settleBill _ _ => [.visit, .order, .session, .news]
  | .createTable _ _ => [.table]
  | .patchTable _ _ => [.table, .session]
  | .rotateSecret _ _ => [.venue, .table, .session]
  | .endSession _ => [.session, .news]
  | .retryDelivery _ => [.delivery]
  | .createStaff _ _ | .updateStaff _ _ _ => [.staff]

/-- What a route names in its path: an order, a table, a session, an account. -/
def StaffRoute.about : StaffRoute → Addr → Prop
  | .patchOrder id _, a | .patchItems id _, a => a.order = some id
  | .patchTable id _, a => a.table = some id
  | .endSession id, a => a.session = some id
  | .updateStaff id _ _, a => a.account = some id
  | _, _ => True

/-- **What a request may touch**, in view of what it has read: a scan, what is at the table
of its code; a phone, its own session and orders and its table's visit; staff, what their
route writes and names and is of their token's venue; an agent, the deliveries of its key's
venue; and a job, its order's. -/
def HouseRequest.mayTouch (past : List (Event api World)) : HouseRequest → Kind → Addr → Prop
  | .scan req, k, a => k ∈ [Kind.visit, .session, .order] ∧ ∃ e ∈ past, ∃ id t,
    e.before.tables.get? id = some t ∧ t.code = req.code ∧ a.venue = t.venueId ∧ a.table = some id
  | .order req, k, a => PhoneMay past req.cookie [.session, .order, .item, .news] [] k a
  | .orders cookie, k, a | .bill cookie, k, a => PhoneMay past cookie [.session] [] k a
  | .cancel cookie _ id, k, a => PhoneMay past cookie [.session, .order, .news] [] k a
    ∧ (k ≠ .session → a.order = some id)
  | .askBill cookie _, k, a => PhoneMay past cookie [.session] [.visit, .news] k a
  | .staff token route, k, a =>
    k ∈ route.writes ∧ route.about a ∧ ∃ c, token = some c ∧ a.venue = c.venueId
  | .password token _ _ _, k, a => k = .staff ∧ ∃ c, token = some c ∧ a.account = c.sub
  | .poll key _, k, a | .ack key _, k, a => k = .delivery ∧ ∃ e ∈ past, ∃ id row,
    e.before.bridgeKeys.get? id = some row ∧ key = some row.keyHash ∧ a.venue = row.venueId
  | .enqueue job, k, a => k = .delivery ∧ a.order = some job.orderId
  | .sweepDeliveries, k, _ => k = .delivery
  | .closeAbandoned, k, _ => k = .visit ∨ k = .news

end Masadan
