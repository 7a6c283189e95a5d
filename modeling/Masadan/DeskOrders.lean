import Masadan.Orders

/-!
# The desk's side of an order

`src/app/api/desk/orders/[id]/route.ts`, which moves an order through the
kitchen, and `src/lib/orderEdit.ts` with its route, which corrects one.
-/

namespace Masadan

/-- What `requireStaff("desk")` returns of a signed-in member of staff. -/
structure StaffClaims where
  sub : Id
  venueId : Id
  name : Text
  deriving DecidableEq, Repr

/-! ## `PATCH /api/desk/orders/[id]` -/

/-- **The desk's transition graph.** `cancelled` is absent by design. -/
def transitions : OrderStatus → List OrderStatus
  | .received => [.accepted, .rejected]
  | .accepted => [.preparing, .ready, .rejected]
  | .preparing => [.ready, .rejected]
  | .ready => [.served]
  | _ => []

/-- The body of the request. `status` is `none` when it is no status at all,
`rejectReason` when it is falsy; a reason that is not a text is what `String`
makes of it. -/
structure PatchBody where
  status : Option OrderStatus
  rejectReason : Option Text

inductive PatchAnswer where
  | ok (status : OrderStatus)
  | unauthorized
  | not_found
  | invalid_transition (current : OrderStatus)
  | reason_required
  deriving DecidableEq, Repr

/-- The HTTP status of an answer. -/
def PatchAnswer.status : PatchAnswer → ℕ
  | .ok _ => 200
  | .unauthorized => 401
  | .not_found => 404
  | .invalid_transition _ => 409
  | .reason_required => 400

/-- What the route writes into the order. -/
def moveTo (status : OrderStatus) (reason : Option Text) (o : Order) : Order :=
  { o with
    status := status
    rejectReason := if status = .rejected then reason.map (fun r => r.slice 200) else none }

/-- **Move an order to the next status.** The check reads the order; the update
is by id alone. Acceptance hands the order to the kitchen printer in the
background. -/
def patchOrder (staff : Option StaffClaims) (id : Id) (body : PatchBody) : Api PatchAnswer := do
  match staff with
  | none => return .unauthorized
  | some staff =>
    let found ← query (fun w => (w.orders.get? id).filter (fun o => o.venueId == staff.venueId))
    match found with
    | none => return .not_found
    | some order =>
      match body.status.filter (fun s => (transitions order.status).contains s) with
      | none => return .invalid_transition order.status
      | some status =>
        if status = .rejected ∧ body.rejectReason = none then return .reason_required
        else
          let updated : Order ← perform (.orderUpdate id (moveTo status body.rejectReason))
          if status = .accepted then
            let _ ← perform (.background ⟨id, none⟩)
            let _ ← perform
              (.publish (.order_updated staff.venueId id updated.sessionId updated.tableId))
            return .ok updated.status
          else
            let _ ← perform
              (.publish (.order_updated staff.venueId id updated.sessionId updated.tableId))
            return .ok updated.status

/-! ## `editOrder` -/

/-- `EDITABLE_STATUSES`: through the kitchen, not after. -/
def EDITABLE_STATUSES : List OrderStatus := IN_FLIGHT_STATUSES

/-- One entry of an edit: a line, and the quantity it should have. -/
structure EditLine where
  itemId : Id
  qty : ℕ
  deriving DecidableEq, Repr

/-- **An edit `orderEditSchema` admits**: 1 to 30 entries, quantities up to
20. -/
structure OrderEditInput where
  lines : List EditLine
  nonempty : 1 ≤ lines.length
  short : lines.length ≤ 30
  small : ∀ l ∈ lines, l.qty ≤ 20

/-- `orderEditSchema.safeParse`, on entries whose quantities are integers. -/
def orderEditSchema (lines : List (Id × ℤ)) : Option OrderEditInput :=
  let parsed := lines.map (fun l => (⟨l.1, l.2.toNat⟩ : EditLine))
  if h : 1 ≤ parsed.length ∧ parsed.length ≤ 30 ∧ (∀ l ∈ parsed, l.qty ≤ 20)
      ∧ (∀ l ∈ lines, 0 ≤ l.2) then
    some ⟨parsed, h.1, h.2.1, h.2.2.1⟩
  else none

inductive EditError where
  | not_found
  | not_editable (status : OrderStatus)
  | unknown_line | no_change | empties_order | conflict
  deriving DecidableEq, Repr

/-- What a successful edit reports. -/
structure EditOk where
  totalKurus : ℤ
  changes : List LineChange
  afterPrint : Bool
  deriving DecidableEq, Repr

/-- An order as `editOrder` reads it: with its lines and whether a ticket for
it is in the outbox. -/
structure OrderForEdit where
  order : Order
  items : List (Id × OrderItem)
  hasDeliveries : Bool
  deriving DecidableEq, Repr

/-- `findFirst({ where: { id, venueId }, include: { items, deliveries } })`. -/
def World.orderForEdit (w : World) (orderId venueId : Id) : Option OrderForEdit :=
  ((w.orders.get? orderId).filter (fun o => o.venueId == venueId)).map (fun o =>
    ⟨o, w.orderItems.filter (fun _ i => i.orderId == orderId),
      (w.posDeliveries.find? (fun _ d => d.orderId == orderId)).isSome⟩)

/-- The lines an edit may touch. -/
def OrderForEdit.live (o : OrderForEdit) : List (Id × OrderItem) :=
  o.items.filter (fun i => i.2.voidedAt.isNone)

/-- `byId`: a live line by its id. -/
def OrderForEdit.byId (o : OrderForEdit) (id : Id) : Option OrderItem :=
  (o.live.find? (fun i => i.1 == id)).map Prod.snd

/-- The quantity an edit leaves a line with, as the total and the emptiness
check compute it: the first entry that names the line decides. -/
def OrderEditInput.qtyAfter (input : OrderEditInput) (i : Id × OrderItem) : ℕ :=
  match input.lines.find? (fun l => l.itemId == i.1) with
  | some edit => edit.qty
  | none => i.2.qty

/-- The loop over the entries: what changes, for the ledger and for the
database. An entry that raises a quantity stops it. -/
def collectEdits (o : OrderForEdit) :
    List EditLine → Option (List (LineChange × LineEdit))
  | [] => some []
  | l :: rest =>
    match o.byId l.itemId with
    | none => none
    | some item =>
      if l.qty > item.qty then none
      else if l.qty ≠ item.qty then
        (collectEdits o rest).map (fun es =>
          (⟨item.nameSnapshot, item.qty, l.qty⟩, ⟨l.itemId, item.qty, l.qty⟩) :: es)
      else collectEdits o rest

/-- What an edit is about to write. -/
structure EditPlan where
  totalKurus : ℤ
  changes : List LineChange
  edits : List LineEdit
  afterPrint : Bool

/-- **Everything `editOrder` decides before its transaction**, from what it
read. -/
def planEdit (o : OrderForEdit) (input : OrderEditInput) : Except EditError EditPlan :=
  if !EDITABLE_STATUSES.contains o.order.status then .error (.not_editable o.order.status)
  else if input.lines.any (fun l => (o.byId l.itemId).isNone) then .error .unknown_line
  else
    match collectEdits o input.lines with
    | none => .error .unknown_line
    | some changed =>
      if changed.isEmpty then .error .no_change
      else
        let remaining := o.live.filter (fun i => decide (input.qtyAfter i > 0))
        if remaining.isEmpty then .error .empties_order
        else .ok {
          totalKurus :=
            (remaining.map (fun i => i.2.unitPriceKurus * (input.qtyAfter i : ℤ))).sum
          changes := changed.map Prod.fst
          edits := changed.map Prod.snd
          afterPrint := o.hasDeliveries }

/-- **Correct an order that has been placed**: lower quantities, or void
lines. -/
def editOrder (orderId venueId : Id) (staffId : Id) (staffName : Text)
    (input : OrderEditInput) : Api (Except EditError EditOk) := do
  let found ← query (fun w => w.orderForEdit orderId venueId)
  match found with
  | none => return .error .not_found
  | some o =>
    match planEdit o input with
    | .error e => return .error e
    | .ok plan =>
      let committed : Bool ← perform (.orderEditTransaction orderId EDITABLE_STATUSES plan.edits
        plan.totalKurus ⟨staffId, staffName, plan.changes, plan.afterPrint⟩)
      if !committed then return .error .conflict
      else
        let _ ← perform
          (.publish (.order_updated venueId orderId o.order.sessionId o.order.tableId))
        return .ok ⟨plan.totalKurus, plan.changes, plan.afterPrint⟩

/-! ## `PATCH /api/desk/orders/[id]/items` -/

inductive ItemsAnswer where
  | ok (totalKurus : ℤ) (changes : List LineChange) (amendmentPrinted : Bool)
  | unauthorized
  | invalid
  | refused (error : EditError)
  deriving DecidableEq, Repr

/-- The HTTP status of an answer. -/
def ItemsAnswer.status : ItemsAnswer → ℕ
  | .ok _ _ _ => 200
  | .unauthorized => 401
  | .invalid => 400
  | .refused .not_found => 404
  | .refused _ => 409

/-- **The desk corrects an order.** An order the kitchen already holds paper for
gets an amendment in the background. -/
def patchItems (staff : Option StaffClaims) (id : Id) (lines : Option (List (Id × ℤ))) :
    Api ItemsAnswer := do
  match staff with
  | none => return .unauthorized
  | some staff =>
    match lines.bind orderEditSchema with
    | none => return .invalid
    | some input =>
      let result ← editOrder id staff.venueId staff.sub staff.name input
      match result with
      | .error e => return .refused e
      | .ok r =>
        if r.afterPrint then
          let _ ← perform (.background ⟨id, some ⟨r.changes, staff.name⟩⟩)
          return .ok r.totalKurus r.changes r.afterPrint
        else return .ok r.totalKurus r.changes r.afterPrint

end Masadan
