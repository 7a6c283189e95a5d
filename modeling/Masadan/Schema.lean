import Mathlib.Data.List.DropRight
import Masadan.Rows

/-!
# The data of the ordering server

The rows the server keeps, after `prisma/schema.prisma`, and the values its
handlers pass around. A row does not carry its own id: a table is a `Rows`, and
the id is the key. Timestamps are milliseconds, amounts are whole kuruş, and a
text is what a JavaScript string is, a list of UTF-16 code units.

A status column holds one of the words the code writes there, so it is an
enumeration. `modifiersJson` and `changesJson` are only ever written by
serializing a list and read by parsing it back, and are kept as the list.
Columns no modelled function reads or writes are left out.

`World` is all of it together with what the one server process adds: the clock,
the events it has published, the accounts it has looked up, and the windows of
its rate limiter.
-/

namespace Masadan

/-- A row's id, or another row's reference to it. -/
abbrev Id := ℕ

/-- Milliseconds since the epoch. -/
abbrev Time := ℤ

/-- A JavaScript string: its UTF-16 code units. -/
abbrev Text := List UInt16

/-! ## Statuses -/

/-- `ORDER_STATUSES`. -/
inductive OrderStatus where
  | received | accepted | preparing | ready | served | rejected | cancelled
  deriving DecidableEq, Repr

/-- `VOID_STATUSES`: statuses that never appear on a bill. -/
def VOID_STATUSES : List OrderStatus := [.rejected, .cancelled]

/-- `IN_FLIGHT_STATUSES`: orders still moving through the kitchen. -/
def IN_FLIGHT_STATUSES : List OrderStatus := [.received, .accepted, .preparing, .ready]

/-- `CUSTOMER_CANCELLABLE`: the status a customer may withdraw an order from. -/
def CUSTOMER_CANCELLABLE : OrderStatus := .received

/-- The filter for orders that count: neither refused nor withdrawn. -/
def notVoid (s : OrderStatus) : Bool := !VOID_STATUSES.contains s

/-- `TableVisit.status`; `opened` is the source's `open`. -/
inductive VisitStatus where
  | opened | bill_requested | closed
  deriving DecidableEq, Repr

/-- The statuses under which a visit still occupies its table. -/
def OPEN_VISIT_STATUSES : List VisitStatus := [.opened, .bill_requested]

/-- `TableVisit.closedReason`. -/
inductive ClosedReason where
  | settled | abandoned
  deriving DecidableEq, Repr

/-- `paymentMethod`, and `Order.paymentProvider`. -/
inductive PaymentMethod where
  | cash | card
  deriving DecidableEq, Repr

/-- `Order.paymentStatus`. -/
inductive PaymentStatus where
  | unpaid | pending | paid | refunded
  deriving DecidableEq, Repr

/-- `PosDelivery.status`. -/
inductive DeliveryStatus where
  | pending | claimed | sent | failed
  deriving DecidableEq, Repr

/-- The names under which an adapter is registered. -/
inductive AdapterName where
  | console | escpos_bridge
  deriving DecidableEq, Repr

/-- `OrderAttempt.outcome`. -/
inductive AttemptOutcome where
  | ok | expired_session | validation_error | rate_limited | number_conflict
  | customer_cancelled | bill_requested | table_inactive | invalid_qr | scan_ok
  deriving DecidableEq, Repr

/-- `StaffUser.role`. -/
inductive Role where
  | admin | desk
  deriving DecidableEq, Repr

/-! ## Tickets -/

/-- One line of a kitchen ticket. -/
structure TicketLine where
  qty : ℕ
  name : Text
  modifiers : List Text
  note : Text
  unitPriceKurus : ℤ
  deriving DecidableEq, Repr

/-- One change of an order's line. -/
structure LineChange where
  name : Text
  fromQty : ℕ
  toQty : ℕ
  deriving DecidableEq, Repr

/-- What makes a ticket a correction of one already sent. -/
structure Amendment where
  changes : List LineChange
  byStaff : Text
  deriving DecidableEq, Repr

/-- A kitchen ticket. -/
structure Ticket where
  venueName : Text
  currency : Text
  tableName : Text
  orderNumber : ℕ
  createdAt : Time
  lines : List TicketLine
  totalKurus : ℤ
  amendment : Option Amendment
  deriving DecidableEq, Repr

/-- The payload an adapter renders from a ticket: plain text on the console,
ESC/POS bytes for the bridge. It is kept as the ticket it was rendered
from. -/
inductive Payload where
  | text (ticket : Ticket)
  | escPos (ticket : Ticket)
  deriving DecidableEq, Repr

/-- The ticket a payload was rendered from. -/
def Payload.ticket : Payload → Ticket
  | .text t => t
  | .escPos t => t

/-! ## Rows -/

structure Venue where
  name : Text
  currency : Text
  qrSecret : Text
  /-- `none` is a name no adapter is registered under. -/
  posAdapter : Option AdapterName
  deriving Repr

structure Table where
  venueId : Id
  code : Text
  name : Text
  qrVersion : ℕ
  active : Bool
  deriving Repr

/-- One party's stay at a table. -/
structure TableVisit where
  venueId : Id
  tableId : Id
  status : VisitStatus
  openedAt : Time
  billRequestedAt : Option Time
  closedAt : Option Time
  closedReason : Option ClosedReason
  totalKurus : Option ℤ
  paymentMethod : Option PaymentMethod
  paidAmountKurus : Option ℤ
  closedByStaffId : Option Id
  deriving DecidableEq, Repr

/-- One phone at a table. -/
structure TableSession where
  venueId : Id
  tableId : Id
  token : ℕ
  visitId : Option Id
  createdAt : Time
  lastSeenAt : Time
  expiresAt : Time
  revokedAt : Option Time
  deriving DecidableEq, Repr

structure Order where
  venueId : Id
  tableId : Id
  sessionId : Id
  visitId : Option Id
  number : ℕ
  status : OrderStatus
  rejectReason : Option Text
  totalKurus : ℤ
  paymentStatus : PaymentStatus
  paymentProvider : Option PaymentMethod
  idempotencyKey : Option Text
  createdAt : Time
  deriving DecidableEq, Repr

/-- A line of an order. `modifiers` is `modifiersJson`. -/
structure OrderItem where
  orderId : Id
  itemId : Option Id
  nameSnapshot : Text
  unitPriceKurus : ℤ
  qty : ℕ
  note : Text
  modifiers : List (Text × ℤ)
  voidedAt : Option Time
  deriving DecidableEq, Repr

/-- Who changed an order, and what. `changes` is `changesJson`. -/
structure OrderEdit where
  orderId : Id
  staffId : Id
  staffName : Text
  changes : List LineChange
  afterPrint : Bool
  createdAt : Time
  deriving DecidableEq, Repr

/-- A row of the outbox. -/
structure PosDelivery where
  venueId : Id
  orderId : Id
  adapter : AdapterName
  status : DeliveryStatus
  attempts : ℕ
  lastError : Option Text
  claimedAt : Option Time
  claimId : Option ℕ
  payload : Payload
  createdAt : Time
  deriving DecidableEq, Repr

/-- A row of the abuse ledger. -/
structure OrderAttempt where
  venueId : Option Id
  tableId : Option Id
  sessionId : Option Id
  orderId : Option Id
  ip : Text
  userAgent : Text
  outcome : AttemptOutcome
  detail : Text
  createdAt : Time
  deriving Repr

/-- A member of staff. -/
structure StaffUser where
  venueId : Id
  email : Text
  name : Text
  passwordHash : Text
  role : Role
  active : Bool
  tokenVersion : ℤ
  deriving DecidableEq, Repr

/-- The credential of a bridge agent, of which only the hash is kept. -/
structure BridgeKey where
  venueId : Id
  keyHash : Text
  deriving Repr

structure ModifierOption where
  id : Id
  nameTr : Text
  priceDeltaKurus : ℤ
  deriving Repr

structure ModifierGroup where
  id : Id
  minSelect : ℤ
  maxSelect : ℤ
  options : List ModifierOption
  deriving Repr

/-- A dish, with its modifier groups and their options. -/
structure MenuItem where
  venueId : Id
  nameTr : Text
  priceKurus : ℤ
  available : Bool
  modifierGroups : List ModifierGroup
  deriving Repr

/-! ## The world -/

/-- The events of the in-process bus. -/
inductive BusEvent where
  | order_created (venueId orderId sessionId tableId : Id)
  | order_updated (venueId orderId sessionId tableId : Id)
  | bill_requested (venueId visitId tableId : Id)
  | bill_updated (venueId visitId tableId : Id)
  | visit_closed (venueId visitId tableId : Id)
  | session_revoked (venueId sessionId : Id)
  | menu_changed (venueId : Id)
  deriving DecidableEq, Repr

/-- What the process remembers of an account it has looked up. -/
structure AccountState where
  checkedAt : Time
  active : Bool
  tokenVersion : ℤ
  role : Role
  name : Text
  deriving DecidableEq, Repr

/-- A window of the rate limiter. -/
structure Window where
  count : ℕ
  resetAt : Time
  deriving DecidableEq, Repr

/-- **Everything the handlers share**: the database, the clock, the events
published so far, latest last, and the process's memory: the account cache and
the limiter's windows, in the order their keys were set. -/
structure World where
  now : Time
  venues : Rows Venue
  tables : Rows Table
  menuItems : Rows MenuItem
  tableVisits : Rows TableVisit
  tableSessions : Rows TableSession
  orders : Rows Order
  orderItems : Rows OrderItem
  orderEdits : Rows OrderEdit
  posDeliveries : Rows PosDelivery
  orderAttempts : Rows OrderAttempt
  staffUsers : Rows StaffUser
  bridgeKeys : Rows BridgeKey
  published : List BusEvent
  accountCache : Id → Option AccountState
  windows : List (Text × Window)

/-- The UTF-16 code units of a text. -/
def text (s : String) : Text :=
  s.toList.flatMap (fun c =>
    let n := c.toNat
    if n < 0x10000 then [n.toUInt16]
    else [(0xd800 + (n - 0x10000) / 0x400).toUInt16, (0xdc00 + (n - 0x10000) % 0x400).toUInt16])

/-- `slice(0, n)`. -/
def Text.slice (s : Text) (n : ℕ) : Text := List.take n s

/-- How many characters a text has: a surrogate pair is one. -/
def Text.points : Text → ℕ
  | [] => 0
  | [_] => 1
  | u :: v :: rest =>
    if 0xd800 ≤ u ∧ u < 0xdc00 ∧ 0xdc00 ≤ v ∧ v < 0xe000 then points rest + 1
    else points (v :: rest) + 1

theorem Text.points_le (s : Text) : s.points ≤ s.length := by
  induction s using Text.points.induct with
  | case1 => exact le_rfl
  | case2 u => exact le_rfl
  | case3 u v rest hpair ih =>
    rw [Text.points, if_pos hpair, List.length_cons, List.length_cons]
    omega
  | case4 u v rest hpair ih =>
    rw [Text.points, if_neg hpair, List.length_cons]
    exact Nat.succ_le_succ ih

theorem Text.points_ascii (s : Text) (h : ∀ u ∈ s, u < 128) : s.points = s.length := by
  induction s using Text.points.induct with
  | case1 => rfl
  | case2 u => rfl
  | case3 u v rest hpair ih =>
    have hlow := h u List.mem_cons_self
    exact absurd (UInt16.lt_of_le_of_lt hpair.1 hlow) (by decide)
  | case4 u v rest hpair ih =>
    rw [Text.points, if_neg hpair, List.length_cons, ih (fun x hx => h x (List.mem_cons_of_mem u hx))]

/-- What the schema library contributes: how it counts a string against `min` and `max`,
and what it says of a body it refuses. -/
structure Zod where
  length : Text → ℕ
  message : Text
  length_le : ∀ s : Text, length s ≤ s.length
  length_ascii : ∀ s : Text, (∀ u ∈ s, u < 128) → length s = s.length

/-- A library that counts characters. -/
def Zod.plain : Zod := ⟨Text.points, [], Text.points_le, Text.points_ascii⟩

/-- The code units `trim` takes away: white space, line terminators, and the byte
order mark. -/
def isSpace (u : UInt16) : Bool :=
  (9 ≤ u && u ≤ 13) || u == 0x20 || u == 0xa0 || u == 0x1680 || (0x2000 ≤ u && u ≤ 0x200a)
    || u == 0x2028 || u == 0x2029 || u == 0x202f || u == 0x205f || u == 0x3000 || u == 0xfeff

/-- `trim()`. -/
def Text.trim (s : Text) : Text := (List.dropWhile isSpace s).rdropWhile isSpace

/-- `toLowerCase()`, on the characters below 128. -/
def Text.toLowerCase (s : Text) : Text :=
  List.map (fun u => if 65 ≤ u && u ≤ 90 then u + 32 else u) s

/-- A database with no rows. -/
def World.blank (now : Time) : World where
  now := now
  venues := Rows.empty
  tables := Rows.empty
  menuItems := Rows.empty
  tableVisits := Rows.empty
  tableSessions := Rows.empty
  orders := Rows.empty
  orderItems := Rows.empty
  orderEdits := Rows.empty
  posDeliveries := Rows.empty
  orderAttempts := Rows.empty
  staffUsers := Rows.empty
  bridgeKeys := Rows.empty
  published := []
  accountCache := fun _ => none
  windows := []

end Masadan
