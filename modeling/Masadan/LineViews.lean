import Masadan.BillSplit
import Masadan.DeskBoard
import Masadan.Outbox

/-!
# The views of an order

Five places show an order's lines: the bill, the desk's board, the ticket that acceptance
writes, the ticket that the sweep builds again for an adapter, and the customer's own list. A
line an edit voids stays in its table, so each of them has to leave it out for itself.

The bill, the board and the first ticket do; the sweep and the customer's list read all lines
of the order. The five show the same lines exactly while no line of the order is voided
(`viewsAgree_iff`), so from the first edit on that takes a line off they differ
(`views_agree`, `views_agree_fails`).
-/

namespace Masadan

/-! ## The customer's list -/

/-- How far back the list goes for a session that is of no visit: four hours. -/
def PRE_VISIT_WINDOW_MS : ℤ := 4 * 60 * 60 * 1000

/-- A line as the customer sees it. -/
structure CustomerItem where
  name : Text
  qty : ℕ
  note : Text
  unitPriceKurus : ℤ
  modifiers : List (Text × ℤ)
  deriving DecidableEq, Repr

/-- An order as the customer sees it. -/
structure CustomerOrder where
  id : Id
  number : ℕ
  status : OrderStatus
  rejectReason : Option Text
  totalKurus : ℤ
  createdAt : Time
  mine : Bool
  items : List CustomerItem
  deriving DecidableEq, Repr

def OrderItem.customerItem (i : OrderItem) : CustomerItem where
  name := i.nameSnapshot
  qty := i.qty
  note := i.note
  unitPriceKurus := i.unitPriceKurus
  modifiers := i.modifiers

/-- All lines of an order, the voided ones among them. -/
def World.allItems (w : World) (orderId : Id) : List (Id × OrderItem) :=
  w.orderItems.filter (fun _ i => i.orderId == orderId)

/-- The orders of a session's party, newest first. -/
def World.partyRows (w : World) (session : ActiveSession) : List (Id × Order) :=
  orderByDesc (fun o => o.2.createdAt) (w.orders.filter (fun _ o =>
    match session.visitId with
    | some visitId => o.visitId == some visitId
    | none => o.tableId == session.tableId && decide (w.now - PRE_VISIT_WINDOW_MS < o.createdAt)))

def World.customerOrder (w : World) (session : ActiveSession) (o : Id × Order) :
    CustomerOrder where
  id := o.1
  number := o.2.number
  status := o.2.status
  rejectReason := o.2.rejectReason
  totalKurus := o.2.totalKurus
  createdAt := o.2.createdAt
  mine := o.2.sessionId == session.id
  items := (w.allItems o.1).map (fun i => i.2.customerItem)

/-- **Everything the party has ordered.** -/
def World.customerOrders (w : World) (session : ActiveSession) : List CustomerOrder :=
  (w.partyRows session).map (w.customerOrder session)

inductive CustomerAnswer where
  | no_session
  | ok (orders : List CustomerOrder)
  deriving DecidableEq, Repr

/-- The HTTP status of an answer. -/
def CustomerAnswer.status : CustomerAnswer → ℕ
  | .no_session => 401
  | .ok _ => 200

/-- **`GET /api/orders`.** -/
def getCustomerOrders (cookie : Option ℕ) : Api CustomerAnswer := do
  let session ← getActiveSession cookie none
  match session with
  | none => return .no_session
  | some session =>
    let orders ← query (fun w => w.customerOrders session)
    return .ok orders

/-! ## The ticket built again -/

/-- The order as `sweepPosDeliveries` reads it with a delivery: with all its lines. -/
def World.orderToRetry (w : World) (orderId : Id) : Option OrderForTicket :=
  w.orderForTicket orderId (w.allItems orderId)

/-- **What the sweep delivers again** is the ticket of the order as it reads it. -/
theorem retryable_orderToRetry {w : World} {r : Id × Ticket} (h : r ∈ w.retryable) :
    ∃ d, w.posDeliveries.get? r.1 = some d
      ∧ ∃ o, w.orderToRetry d.orderId = some o ∧ r.2 = ticketFor o := by
  unfold World.retryable at h
  obtain ⟨d, hd, hr⟩ := List.mem_filterMap.mp h
  obtain ⟨o, ho, rfl⟩ := Option.map_eq_some_iff.mp hr
  have hrow := (orderBy_perm _ _).mem_iff.mp (List.mem_of_mem_take hd)
  exact ⟨d.2, (Rows.mem_filter.mp hrow).1, o, ho, rfl⟩

/-! ## The same lines -/

/-- What every view says of a line: what it is, and how many. -/
def OrderItem.shown (i : OrderItem) : Text × ℕ := (i.nameSnapshot, i.qty)

/-- **The lines of an order**: those that are not voided. -/
def World.liveLines (w : World) (id : Id) : List (Text × ℕ) :=
  (w.liveItems id).map (fun i => i.2.shown)

/-- **Every view that shows an order shows the same lines of it.** -/
structure ViewsAgree (w : World) (id : Id) : Prop where
  /-- A bill has the lines of its orders in turn, and this order's in their place. -/
  bill : ∀ visitId b, w.buildBill visitId = some b → id ∈ b.orderIds →
    ∃ before after, b.orderIds = before ++ id :: after
      ∧ b.lines.map (fun l => (l.name, l.qty))
        = before.flatMap w.liveLines ++ w.liveLines id ++ after.flatMap w.liveLines
  desk : ∀ venueId all, ∀ row ∈ w.deskOrders venueId all, row.id = id →
    row.items.map (fun i => i.id) = (w.liveItems id).map Prod.fst
      ∧ row.items.map (fun i => (i.name, i.qty)) = w.liveLines id
  enqueued : ∀ o, w.orderToEnqueue id = some o →
    (ticketFor o).lines.map (fun l => (l.name, l.qty)) = w.liveLines id
  rebuilt : ∀ o, w.orderToRetry id = some o →
    (ticketFor o).lines.map (fun l => (l.name, l.qty)) = w.liveLines id
  customer : ∀ session, ∀ row ∈ w.customerOrders session, row.id = id →
    row.items.map (fun i => (i.name, i.qty)) = w.liveLines id

/-- A line of the order is voided. -/
def World.anyVoided (w : World) (id : Id) : Prop :=
  ∃ k i, w.orderItems.get? k = some i ∧ i.orderId = id ∧ i.voidedAt ≠ none

section

variable {w : World} {id : Id}

theorem liveItems_eq (w : World) (id : Id) :
    w.liveItems id = (w.allItems id).filter (fun i => i.2.voidedAt.isNone) := by
  unfold World.liveItems World.allItems Rows.filter
  rw [List.filter_filter]
  exact List.filter_congr (fun r _ => Bool.and_comm _ _)

/-- **All lines of an order are its lines exactly when none is voided.** -/
theorem allItems_shown : (w.allItems id).map (fun i => i.2.shown) = w.liveLines id
    ↔ ¬ w.anyVoided id := by
  unfold World.liveLines
  constructor
  · rintro h ⟨k, i, hi, hid, hvoided⟩
    -- as many are live as there are
    have hlen := congrArg List.length h
    rw [List.length_map, List.length_map, liveItems_eq] at hlen
    have hmem : (k, i) ∈ w.allItems id := Rows.mem_filter.mpr ⟨hi, beq_iff_eq.mpr hid⟩
    have hlive := List.length_filter_eq_length_iff.mp hlen.symm (k, i) hmem
    exact hvoided (Option.isNone_iff_eq_none.mp hlive)
  · intro h
    rw [liveItems_eq, List.filter_eq_self.mpr (fun i hi => ?_)]
    obtain ⟨hget, hid⟩ := Rows.mem_filter.mp hi
    by_contra hvoided
    exact h ⟨i.1, i.2, hget, beq_iff_eq.mp hid, fun hnone => hvoided (by rw [hnone]; rfl)⟩

theorem orderForTicket_items {items : List (Id × OrderItem)} {o : OrderForTicket}
    (h : w.orderForTicket id items = some o) : o.items = items.map Prod.snd := by
  unfold World.orderForTicket at h
  split at h
  · cases h
  · split at h
    · cases h
      rfl
    · cases h

/-- A ticket shows the lines it is made of. -/
theorem ticketFor_shown {items : List (Id × OrderItem)} {o : OrderForTicket}
    (h : w.orderForTicket id items = some o) :
    (ticketFor o).lines.map (fun l => (l.name, l.qty)) = items.map (fun i => i.2.shown) := by
  unfold ticketFor
  rw [orderForTicket_items h, List.map_map, List.map_map]
  rfl

/-- A bill's lines are those of its orders in turn. -/
theorem buildBill_lines {visitId : Id} {b : Bill} (h : w.buildBill visitId = some b) :
    b.lines.map (fun l => (l.name, l.qty)) = b.orderIds.flatMap w.liveLines := by
  unfold World.buildBill at h
  split at h
  · cases h
  · cases h
    rw [List.map_flatMap, List.flatMap_map]
    refine congrArg (fun f => List.flatMap f _) (funext fun o => ?_)
    rw [List.map_map]
    rfl

/-- **The views agree on an order exactly when no line of it is voided.** -/
theorem viewsAgree_iff (h : (w.orderToRetry id).isSome) : ViewsAgree w id ↔ ¬ w.anyVoided id := by
  constructor
  · intro hviews
    obtain ⟨o, ho⟩ := Option.isSome_iff_exists.mp h
    rw [← allItems_shown, ← ticketFor_shown ho]
    exact hviews.rebuilt o ho
  · intro hnone
    have hall := allItems_shown.mpr hnone
    constructor
    case bill =>
      intro visitId b hb hid
      obtain ⟨before, after, heq⟩ := List.append_of_mem hid
      refine ⟨before, after, heq, ?_⟩
      rw [buildBill_lines hb, heq, List.flatMap_append, List.flatMap_cons, List.append_assoc]
    case desk =>
      rintro venueId all row hrow rfl
      obtain ⟨r, _, rfl⟩ := List.mem_map.mp hrow
      constructor
      · show ((w.liveItems r.1).map OrderItem.deskItem).map _ = _
        rw [List.map_map]
        rfl
      · show ((w.liveItems r.1).map OrderItem.deskItem).map _ = _
        rw [List.map_map]
        rfl
    case enqueued => exact fun o ho => ticketFor_shown ho
    case rebuilt => exact fun o ho => (ticketFor_shown ho).trans hall
    case customer =>
      rintro session row hrow rfl
      obtain ⟨r, _, rfl⟩ := List.mem_map.mp hrow
      rw [← hall]
      show ((w.allItems r.1).map _).map _ = _
      rw [List.map_map]
      rfl

end

/-! ## One edit after another -/

/-- A call of `editOrder`. -/
structure EditCall where
  orderId : Id
  venueId : Id
  staffId : Id
  staffName : Text
  input : OrderEditInput

/-- **One edit**, at a time. -/
def World.editCall (w : World) (s : Time × EditCall) : World :=
  World.after { w with now := s.1 }
    (editOrder s.2.orderId s.2.venueId s.2.staffId s.2.staffName s.2.input)

/-- Edits, one after another. -/
def World.editCalls (w : World) (trace : List (Time × EditCall)) : World :=
  trace.foldl World.editCall w

theorem editCalls_append (w : World) (trace : List (Time × EditCall)) (s : Time × EditCall) :
    w.editCalls (trace ++ [s]) = (w.editCalls trace).editCall s := by
  unfold World.editCalls
  rw [List.foldl_append, List.foldl_cons, List.foldl_nil]

/-- The edit is accepted: it is planned, and it names no line twice. -/
def World.accepts (w : World) (call : EditCall) (plan : EditPlan) : Prop :=
  ∃ o, w.orderForEdit call.orderId call.venueId = some o ∧ planEdit o call.input = .ok plan
    ∧ (plan.edits.map LineEdit.id).Nodup

/-- **The edit takes a line off the order.** -/
def World.voids (w : World) (call : EditCall) (id : Id) : Prop :=
  call.orderId = id ∧ ∃ plan, w.accepts call plan ∧ ∃ e ∈ plan.edits, e.toQty = 0

/-- Edits of different lines that read the lines as they are go through. -/
theorem applyEdits_isSome {now : Time} {es : List LineEdit} {items : Rows OrderItem}
    (hnodup : (es.map LineEdit.id).Nodup)
    (hhits : ∀ e ∈ es, ∃ i, items.get? e.id = some i ∧ e.hits e.id i = true) :
    ∃ items', World.applyEdits now es items = some items' := by
  induction es generalizing items with
  | nil => exact ⟨items, rfl⟩
  | cons e es ih =>
    obtain ⟨hnot, hrest⟩ := List.nodup_cons.mp hnodup
    obtain ⟨i, hi, hhit⟩ := hhits e List.mem_cons_self
    unfold World.applyEdits
    rw [if_neg (Rows.count_pos hi hhit).ne']
    refine ih hrest (fun e' he' => ?_)
    obtain ⟨i', hi', hhit'⟩ := hhits e' (List.mem_cons_of_mem _ he')
    -- the line of a later entry is another one
    have hne : e'.id ≠ e.id := fun h => hnot (h ▸ List.mem_map_of_mem he')
    refine ⟨i', ?_, hhit'⟩
    rw [Rows.get?_update, hi', Option.map_some,
      if_neg (fun h => hne (LineEdit.hits_iff.mp h).1)]

section

variable {w : World} {id : Id}

theorem World.accepts.unique {call : EditCall} {plan plan' : EditPlan} (h : w.accepts call plan)
    (h' : w.accepts call plan') : plan = plan' := by
  obtain ⟨o, ho, hplan, _⟩ := h
  obtain ⟨o', ho', hplan', _⟩ := h'
  cases ho.symm.trans ho'
  exact Except.ok.inj (hplan.symm.trans hplan')

/-- What the edits of a plan were read from is there. -/
theorem edits_hit {orderId venueId : Id} {o : OrderForEdit} {input : OrderEditInput}
    {plan : EditPlan} (ho : w.orderForEdit orderId venueId = some o)
    (hplan : planEdit o input = .ok plan) {e : LineEdit} (he : e ∈ plan.edits) :
    ∃ i, w.orderItems.get? e.id = some i ∧ i.orderId = orderId ∧ e.hits e.id i = true := by
  obtain ⟨l, _, i, hi, _, rfl⟩ := (mem_edits ho hplan).mp he
  obtain ⟨hrow, hid, hlive⟩ := mem_liveItems.mp hi
  exact ⟨i, hrow, hid, LineEdit.hits_iff.mpr ⟨rfl, rfl, hlive⟩⟩

/-- What the world has of an order's place. -/
def World.placeOf (w : World) (id : Id) : Option (Id × Id) :=
  (w.orders.get? id).map (fun o => (o.tableId, o.venueId))

/-- What an edit leaves besides the lines. -/
structure PlacesKept (w w' : World) : Prop where
  orders : ∀ id, w'.placeOf id = w.placeOf id
  tables : w'.tables = w.tables
  venues : w'.venues = w.venues

/-- Whether an order's ticket can be built. -/
theorem orderForTicket_isSome {items : List (Id × OrderItem)} :
    (w.orderForTicket id items).isSome
      ↔ ∃ p, w.placeOf id = some p ∧ (w.tables.get? p.1).isSome ∧ (w.venues.get? p.2).isSome := by
  unfold World.orderForTicket World.placeOf
  cases w.orders.get? id with
  | none => simp
  | some o =>
    cases ht : w.tables.get? o.tableId with
    | none => simp [ht]
    | some t =>
      cases hv : w.venues.get? o.venueId with
      | none => simp [hv]
      | some v => simp [ht, hv]

theorem PlacesKept.retry {w' : World} (h : PlacesKept w w') :
    (w'.orderToRetry id).isSome ↔ (w.orderToRetry id).isSome := by
  unfold World.orderToRetry
  rw [orderForTicket_isSome, orderForTicket_isSome, h.orders, h.tables, h.venues]

/-- An edit whose lines are found, of an order still editable, commits. -/
theorem orderEditTransaction_commits {orderId : Id} {statuses : List OrderStatus}
    {edits : List LineEdit} (total : ℤ) (entry : NewOrderEdit) {items : Rows OrderItem} {o : Order}
    (happ : World.applyEdits w.now edits w.orderItems = some items)
    (ho : w.orders.get? orderId = some o) (hs : o.status ∈ statuses) :
    (w.orderEditTransaction orderId statuses edits total entry).2 = true := by
  have hcount : 0 < w.orders.count (World.editable orderId statuses) :=
    Rows.count_pos ho (Bool.and_eq_true_iff.mpr ⟨beq_self_eq_true orderId,
      List.contains_iff_mem.mpr hs⟩)
  unfold World.orderEditTransaction
  rw [happ]
  dsimp only
  rw [if_neg hcount.ne']

/-- **What one edit does**: where it is accepted it writes its lines, and else nothing. -/
theorem editCall_lines (w : World) (s : Time × EditCall) :
    ((∃ plan, w.accepts s.2 plan
        ∧ World.applyEdits s.1 plan.edits w.orderItems = some (w.editCall s).orderItems)
      ∨ (∀ plan, ¬ w.accepts s.2 plan) ∧ (w.editCall s).orderItems = w.orderItems)
    ∧ PlacesKept w (w.editCall s) := by
  suffices h : Alone (fun w' _ =>
      ((∃ plan, w.accepts s.2 plan
          ∧ World.applyEdits s.1 plan.edits w.orderItems = some w'.orderItems)
        ∨ (∀ plan, ¬ w.accepts s.2 plan) ∧ w'.orderItems = w.orderItems) ∧ PlacesKept w w')
      (editOrder s.2.orderId s.2.venueId s.2.staffId s.2.staffName s.2.input)
      { w with now := s.1 } from h
  have hsame : ∀ t, PlacesKept w { w with now := t } := fun t => ⟨fun _ => rfl, rfl, rfl⟩
  unfold editOrder
  refine alone_query ?_
  cases hfound : ({ w with now := s.1 } : World).orderForEdit s.2.orderId s.2.venueId with
  | none =>
    refine ⟨.inr ⟨?_, rfl⟩, hsame _⟩
    rintro plan ⟨o, ho, _⟩
    cases hfound.symm.trans ho
  | some o =>
    dsimp only
    cases hplan : planEdit o s.2.input with
    | error e =>
      refine ⟨.inr ⟨?_, rfl⟩, hsame _⟩
      rintro plan ⟨o', ho', hplan', _⟩
      cases hfound.symm.trans ho'
      cases hplan.symm.trans hplan'
    | ok plan =>
      dsimp only
      refine alone_write (fun w' x hx => ?_)
      obtain ⟨b, rfl, htx⟩ := exec_orderEditTransaction hx
      rcases orderEditTransaction_cases htx with ⟨rfl, rfl⟩
        | ⟨items, order, rfl, happ, _, _, hitems, horders, _, _, _, htables, hvenues⟩
      · refine ⟨.inr ⟨fun plan' hplan' => ?_, rfl⟩, hsame _⟩
        obtain ⟨o', ho', hplan', hnodup⟩ := hplan'
        cases hfound.symm.trans ho'
        cases hplan.symm.trans hplan'
        have happ : ∃ items, World.applyEdits s.1 plan.edits w.orderItems = some items :=
          applyEdits_isSome hnodup (fun e he => by
            obtain ⟨i, hi, _, hhit⟩ := edits_hit hfound hplan he
            exact ⟨i, hi, hhit⟩)
        obtain ⟨items, happ⟩ := happ
        obtain ⟨row, hrow, rfl⟩ := Option.map_eq_some_iff.mp hfound
        have hcommits := orderEditTransaction_commits (w := { w with now := s.1 })
          plan.totalKurus ⟨s.2.staffId, s.2.staffName, plan.changes, plan.afterPrint⟩ happ
          (Option.filter_eq_some_iff.mp hrow).1 (planEdit_spec hplan).1
        rw [htx] at hcommits
        cases hcommits
      · have hne := edits_change hfound hplan
        have hfrom := edits_from hfound hplan
        refine alone_write (fun w₂ x₂ hx₂ => ?_)
        cases hx₂
        refine ⟨.inl ⟨plan, ⟨o, hfound, hplan, (applyEdits_spec happ hne hfrom).1⟩, ?_⟩, ?_,
          htables, hvenues⟩
        · exact happ.trans (congrArg some hitems.symm)
        · intro k
          show (w'.orders.get? k).map _ = _
          rw [horders, Rows.get?_update, Option.map_map]
          refine congrArg (fun f => Option.map f (w.orders.get? k)) (funext fun o' => ?_)
          rw [Function.comp_apply]
          split
          · rfl
          · rfl

/-- **A line is voided after an edit exactly when one was before, or the edit takes one off.** -/
theorem anyVoided_editCall (w : World) (s : Time × EditCall) (id : Id) :
    (w.editCall s).anyVoided id ↔ w.anyVoided id ∨ w.voids s.2 id := by
  rcases (editCall_lines w s).1 with ⟨plan, ⟨o, ho, hplan, hnodup⟩, happ⟩ | ⟨hrefused, hitems⟩
  · have haccept : w.accepts s.2 plan := ⟨o, ho, hplan, hnodup⟩
    have hne := edits_change ho hplan
    have hfrom := edits_from ho hplan
    have hget := applyEdits_get? happ hne hfrom
    constructor
    · rintro ⟨k, i', hi', hid, hvoided⟩
      rw [hget] at hi'
      obtain ⟨i, hi, rfl⟩ := Option.map_eq_some_iff.mp hi'
      rw [LineEdit.leaves_orderId] at hid
      by_cases hlive : i.voidedAt = none
      · -- it was live, so the edit took it off
        unfold LineEdit.leaves at hvoided
        cases hfind : plan.edits.find? (fun e => e.id == k) with
        | none =>
          rw [hfind] at hvoided
          exact absurd hlive hvoided
        | some e =>
          have he := List.mem_of_find?_eq_some hfind
          have hk : e.id = k := by simpa using List.find?_some hfind
          obtain ⟨j, hj, horder, _⟩ := edits_hit ho hplan he
          rw [hk, hi] at hj
          cases hj
          rw [hfind] at hvoided
          refine .inr ⟨horder.symm.trans hid, plan, haccept, e, he, ?_⟩
          by_contra hzero
          dsimp only at hvoided
          unfold LineEdit.apply at hvoided
          rw [if_neg hzero] at hvoided
          exact hvoided hlive
      · exact .inl ⟨k, i, hi, hid, hlive⟩
    · rintro (⟨k, i, hi, hid, hvoided⟩ | ⟨rfl, plan', haccept', e, he, hzero⟩)
      · refine ⟨k, i, ?_, hid, hvoided⟩
        rw [hget, hi, Option.map_some, leaves_of_not_live ho hplan (fun j hj => ?_)]
        obtain ⟨hrow, _, hlive⟩ := mem_liveItems.mp hj
        cases hi.symm.trans hrow
        exact hvoided hlive
      · cases haccept.unique haccept'
        obtain ⟨i, hi, horder, _⟩ := edits_hit ho hplan he
        obtain ⟨j, hj, _, hnew⟩ := (applyEdits_spec happ hne hfrom).2.1 e he
        cases hi.symm.trans hj
        refine ⟨e.id, _, hnew, ?_, ?_⟩
        · unfold LineEdit.apply
          rw [if_pos hzero]
          exact horder
        · unfold LineEdit.apply
          rw [if_pos hzero]
          exact Option.some_ne_none _
  · unfold World.anyVoided
    rw [hitems]
    refine (or_iff_left ?_).symm
    rintro ⟨_, plan, haccept, _⟩
    exact hrefused plan haccept

/-- An edit that asks for no quantity of zero takes no line off. -/
theorem not_voids {call : EditCall} (h : ∀ l ∈ call.input.lines, l.qty ≠ 0) :
    ¬ w.voids call id := by
  rintro ⟨_, plan, ⟨o, ho, hplan, _⟩, e, he, hzero⟩
  obtain ⟨l, hl, _, _, _, rfl⟩ := (mem_edits ho hplan).mp he
  exact h l hl hzero

theorem orderToRetry_editCalls (w : World) (trace : List (Time × EditCall)) :
    ((w.editCalls trace).orderToRetry id).isSome ↔ (w.orderToRetry id).isSome := by
  induction trace using List.reverseRecOn with
  | nil => exact Iff.rfl
  | append_singleton trace s ih =>
    rw [editCalls_append]
    exact (editCall_lines _ s).2.retry.trans ih

end

/-! ## The law -/

/-- **No line of the order is voided, and no edit of the run takes one off.** -/
def NothingVoided (w₀ : World) (trace : List (Time × EditCall)) (id : Id) : Prop :=
  ¬ w₀.anyVoided id ∧ ∀ pre s, pre ++ [s] <+: trace → ¬ (w₀.editCalls pre).voids s.2 id

/-- **Every view shows the same lines of an order**, at any time after any edit of a run, when
no edit takes a line off it, and otherwise not. -/
theorem views_agree {w₀ : World} {id : Id} (h : (w₀.orderToRetry id).isSome)
    (trace : List (Time × EditCall)) :
    (∀ pre, pre <+: trace → ∀ now, ViewsAgree { w₀.editCalls pre with now := now } id)
      ↔ NothingVoided w₀ trace id := by
  have hiff : ∀ pre now, ViewsAgree { w₀.editCalls pre with now := now } id
      ↔ ¬ (w₀.editCalls pre).anyVoided id :=
    fun pre now => viewsAgree_iff (w := { w₀.editCalls pre with now := now })
      ((orderToRetry_editCalls w₀ pre).mpr h)
  constructor
  · intro hviews
    refine ⟨(hiff [] 0).mp (hviews [] (List.nil_prefix) 0), fun pre s hpre hvoids => ?_⟩
    have hafter := (hiff _ 0).mp (hviews _ hpre 0)
    rw [editCalls_append] at hafter
    exact hafter ((anyVoided_editCall _ s id).mpr (.inr hvoids))
  · rintro ⟨hstart, hnone⟩ pre hpre now
    rw [hiff]
    induction pre using List.reverseRecOn with
    | nil => exact hstart
    | append_singleton pre s ih =>
      rw [editCalls_append, anyVoided_editCall, not_or]
      exact ⟨ih ((List.prefix_append _ _).trans hpre), hnone pre s hpre⟩

/-- An order of two coffees and a tea. -/
def coffeesAndTea : World :=
  { World.blank 0 with
    venues := Rows.ofList [⟨text "Masadan", text "TRY", [], none⟩]
    tables := Rows.ofList [⟨0, text "1", text "Masa 1", 1, true⟩]
    orders := Rows.ofList [⟨0, 0, 3, some 0, 1, .received, none, 300, .unpaid, none, none, 0⟩]
    orderItems := Rows.ofList [⟨0, none, text "Kahve", 100, 2, [], [], none⟩,
      ⟨0, none, text "Çay", 100, 1, [], [], none⟩] }

theorem coffeesAndTea_live : ¬ coffeesAndTea.anyVoided 0 := by
  rintro ⟨k, i, hi, _, hvoided⟩
  have hlive : ∀ r ∈ coffeesAndTea.orderItems.rows, r.2.voidedAt = none := by decide
  exact hvoided (hlive (k, i) (Rows.get?_eq_some_iff.mp hi))

/-- An edit of that order. -/
def editOf (line : EditLine) (h : line.qty ≤ 20) : EditCall :=
  ⟨0, 0, 7, text "Ayşe", ⟨[line], by simp, by simp, by simpa using h⟩⟩

/-- One coffee less is the same in every view. -/
theorem views_agree_lowered :
    ViewsAgree { coffeesAndTea.editCalls [(1, editOf ⟨0, 1⟩ (by decide))] with now := 2 } 0 := by
  refine (views_agree (show (coffeesAndTea.orderToRetry 0).isSome by decide)
    [(1, editOf ⟨0, 1⟩ (by decide))]).mpr ⟨coffeesAndTea_live, fun pre s hpre => ?_⟩ _
    List.prefix_rfl 2
  have hs : s = (1, editOf ⟨0, 1⟩ (by decide)) :=
    List.mem_singleton.mp (hpre.subset (List.mem_append_right _ List.mem_cons_self))
  rw [hs]
  exact not_voids (by decide)

/-- **A line that is taken off still shows** to the customer, and on the sweep's ticket. -/
theorem views_agree_fails :
    ¬ ∀ (w₀ : World) (trace : List (Time × EditCall)) (id : Id), (w₀.orderToRetry id).isSome →
      ¬ w₀.anyVoided id → ViewsAgree (w₀.editCalls trace) id := by
  intro h
  have hviews := h coffeesAndTea [(1, editOf ⟨1, 0⟩ (by decide))] 0 (by decide)
    coffeesAndTea_live
  have hrow : (coffeesAndTea.editCalls [(1, editOf ⟨1, 0⟩ (by decide))]).customerOrders
      ⟨3, 0, 0, [], [], some 0⟩
      = [⟨0, 1, .received, none, 200, 0, true, [⟨text "Kahve", 2, [], 100, []⟩,
          ⟨text "Çay", 0, [], 100, []⟩]⟩] := by
    decide
  have hsame := hviews.customer _ _ (by rw [hrow]; exact List.mem_cons_self) rfl
  exact absurd hsame (by decide)

end Masadan
